import EditorBridge.Proofs.Hub.Frames
import Mathlib.Data.List.Pairwise

/-!
# The hub in good order

A hub is in good order (`Sound`) if the roster lists workspaces that there are under keys that are
not the same, and if every server that is there belongs to the workspace whose events it raises. A
workspace that is being started is a `Site`: a set of subscriptions that is no workspace's yet, and
the servers that have been started for it. `Fades` is what happens when no server, workspace or set
of subscriptions is new, and `Ages` what always happens: the numbers that are given stay given, and
what is gone stays gone.
-/

namespace EditorBridge

namespace Workspace.Key

variable {k l m : Key}

theorem isSame_iff : k.isSame l = true ↔
    Text.pathComponents k.root.toList = Text.pathComponents l.root.toList ∧
      k.binary = l.binary := by
  simp [isSame]

theorem isSame_refl (k : Key) : k.isSame k = true :=
  isSame_iff.mpr ⟨rfl, rfl⟩

theorem isSame_symm (same : k.isSame l = true) : l.isSame k = true := by
  obtain ⟨roots, binaries⟩ := isSame_iff.mp same
  exact isSame_iff.mpr ⟨roots.symm, binaries.symm⟩

theorem isSame_comm (k l : Key) : k.isSame l = l.isSame k :=
  Bool.eq_iff_iff.mpr ⟨isSame_symm, isSame_symm⟩

theorem isSame_trans (first : k.isSame l = true) (second : l.isSame m = true) :
    k.isSame m = true := by
  obtain ⟨roots, binaries⟩ := isSame_iff.mp first
  obtain ⟨roots', binaries'⟩ := isSame_iff.mp second
  exact isSame_iff.mpr ⟨roots.trans roots', binaries.trans binaries'⟩

end Workspace.Key

open Workspace (Key)

namespace Roster

variable {η : Type} {r : Roster η} {key : Key} {n : Nat}

theorem mem_of_find? (there : r.find? key = some n) :
    ∃ k, k.isSame key = true ∧ (k, n) ∈ r.current := by
  obtain ⟨entry, found, rfl⟩ := Option.map_eq_some_iff.mp there
  have same := List.find?_some found
  exact ⟨entry.1, same, List.mem_of_find?_eq_some found⟩

theorem find?_eq_none : r.find? key = none ↔ ∀ entry ∈ r.current, entry.1.isSame key = false := by
  simp [find?]

theorem mem_strike {entry : Key × Nat} :
    entry ∈ (r.strike key).current ↔ entry ∈ r.current ∧ entry.1.isSame key = false := by
  simp [strike]

/-- Among keys that are not the same, the one that is found is the only one. -/
theorem eq_of_find? {k : Key} {m : Nat}
    (keys : r.current.Pairwise fun a b => a.1.isSame b.1 = false)
    (there : r.find? key = some n) (listed : (k, m) ∈ r.current) (same : k.isSame key = true) :
    m = n := by
  obtain ⟨l, alike, inside⟩ := mem_of_find? there
  by_cases one : (k, m) = (l, n)
  · exact congrArg Prod.snd one
  · have : Std.Symm fun a b : Key × Nat => a.1.isSame b.1 = false :=
      ⟨fun a b apart => (Key.isSame_comm b.1 a.1).trans apart⟩
    have apart := keys.forall listed inside one
    dsimp only at apart
    rw [Key.isSame_trans same (Key.isSame_symm alike)] at apart
    cases apart

end Roster

namespace Hub

variable {η : Type} {h h' h'' : Hub η} {key : Key} {n board : Nat} {w : Workspace} {crew : List Nat}

/-! ### What goes on -/

/-- What happens when nothing is new. -/
structure Fades (h h' : Hub η) : Prop where
  roster : h'.roster.current.Sublist h.roster.current
  stamps : h'.stamps = h.stamps
  boards : h'.boards.length = h.boards.length
  alive : ∀ c, h'.isAlive c = true → h.isAlive c = true
  count : h'.workspaces.length = h.workspaces.length
  workspaces : ∀ n w, h.workspace? n = some w → h'.workspace? n = some w ∨
    h'.workspace? n = some w.takeWorker.1 ∧ ∀ c, w.worker = some c → h'.isAlive c = false

/-- What always happens. -/
structure Ages (h h' : Hub η) : Prop where
  roster : ∀ entry ∈ h'.roster.current, entry ∈ h.roster.current ∨ h.workspaces.length ≤ entry.2
  stamps : h.stamps <+: h'.stamps
  boards : h.boards.length ≤ h'.boards.length
  alive : ∀ c < h.links.length, h'.isAlive c = true → h.isAlive c = true
  count : h.workspaces.length ≤ h'.workspaces.length
  workspaces : ∀ n w, h.workspace? n = some w →
    h'.workspace? n = some w ∨ h'.workspace? n = some w.takeWorker.1

theorem Fades.ages (fades : h.Fades h') : h.Ages h' := by
  refine ⟨?_, ?_, ?_, ?_, ?_, ?_⟩
  · intro entry listed
    exact .inl (fades.roster.subset listed)
  · exact fades.stamps ▸ List.prefix_refl _
  · exact Nat.le_of_eq fades.boards.symm
  · intro c _ there
    exact fades.alive c there
  · exact Nat.le_of_eq fades.count.symm
  · intro n w found
    exact (fades.workspaces n w found).imp_right And.left

theorem Works.fades (works : h.Works h') : h.Fades h' := by
  refine ⟨works.roster ▸ List.Sublist.refl _, works.stamps, ?_, works.alive, ?_, ?_⟩
  · rw [← length_tables, works.tables, length_tables]
  · rw [works.workspaces]
  · intro n w found
    exact .inl (by rw [workspace?, works.workspaces]; exact found)

/-- Only the roster is another, and lists nothing new. -/
theorem fades_roster {roster : Roster η} (fewer : roster.current.Sublist h.roster.current) :
    h.Fades { h with roster } :=
  ⟨fewer, rfl, rfl, fun _ there => there, rfl, fun _ _ found => .inl found⟩

theorem Fades.refl (h : Hub η) : h.Fades h :=
  fades_roster (List.Sublist.refl _)

theorem lt_of_workspace? (found : h.workspace? n = some w) : n < h.workspaces.length :=
  (List.getElem?_eq_some_iff.mp found).1

theorem Fades.trans (first : h.Fades h') (second : h'.Fades h'') : h.Fades h'' := by
  refine ⟨second.roster.trans first.roster, second.stamps.trans first.stamps,
    second.boards.trans first.boards, fun c there => first.alive c (second.alive c there),
    second.count.trans first.count, ?_⟩
  intro n w found
  rcases first.workspaces n w found with same | ⟨less, gone⟩
  · exact second.workspaces n w same
  · refine .inr ⟨(second.workspaces n _ less).elim id And.left, ?_⟩
    intro c works
    cases there : h''.isAlive c with
    | false => rfl
    | true => exact (second.alive c there).symm.trans (gone c works)

/-- A workspace that is there after nothing was new was there before. -/
theorem Fades.old (fades : h.Fades h') {w' : Workspace} (found : h'.workspace? n = some w') :
    ∃ w, h.workspace? n = some w ∧
      (w' = w ∨ w' = w.takeWorker.1 ∧ ∀ c, w.worker = some c → h'.isAlive c = false) := by
  have within : n < h.workspaces.length := fades.count ▸ lt_of_workspace? found
  have before : h.workspace? n = some h.workspaces[n] := List.getElem?_eq_getElem within
  refine ⟨_, before, ?_⟩
  rcases fades.workspaces n _ before with same | ⟨less, gone⟩
  · exact .inl (Option.some.inj (found.symm.trans same))
  · exact .inr ⟨Option.some.inj (found.symm.trans less), gone⟩

/-- A workspace keeps all but its worker. -/
theorem Ages.later (ages : h.Ages h') (found : h.workspace? n = some w) :
    ∃ w', h'.workspace? n = some w' ∧ w'.key = w.key ∧ w'.spec = w.spec ∧
      w'.primary = w.primary ∧ w'.board = w.board ∧ (w'.worker = w.worker ∨ w'.worker = none) := by
  rcases ages.workspaces n w found with same | less
  · exact ⟨w, same, rfl, rfl, rfl, rfl, .inl rfl⟩
  · exact ⟨w.takeWorker.1, less, rfl, rfl, rfl, rfl, .inr rfl⟩

theorem Ages.boardOf? (ages : h.Ages h') {c : Nat} (known : h.boardOf? c = some board) :
    h'.boardOf? c = some board := by
  obtain ⟨stamp, found, same⟩ := Option.map_eq_some_iff.mp known
  obtain ⟨more, all⟩ := ages.stamps
  rw [Hub.boardOf?, ← all, List.getElem?_append_left (List.getElem?_eq_some_iff.mp found).1, found]
  exact congrArg some same

theorem lt_of_boardOf? {c : Nat} (known : h.boardOf? c = some board) : c < h.links.length := by
  obtain ⟨stamp, found, -⟩ := Option.map_eq_some_iff.mp known
  exact h.length_stamps ▸ (List.getElem?_eq_some_iff.mp found).1

/-! ### Good order -/

/-- What always holds of a hub. -/
structure Sound (h : Hub η) : Prop where
  opened : ∀ c board, h.boardOf? c = some board → board < h.boards.length
  primary : ∀ n w, h.workspace? n = some w → h.boardOf? w.primary = some w.board
  worker : ∀ n w c, h.workspace? n = some w → w.worker = some c → h.boardOf? c = some w.board
  apart : ∀ n m w v, h.workspace? n = some w → h.workspace? m = some v → w.board = v.board → n = m
  manned : ∀ n w c, h.workspace? n = some w → h.boardOf? c = some w.board →
    h.isAlive c = true → c = w.primary ∨ w.worker = some c
  listed : ∀ key n, (key, n) ∈ h.roster.current → ∃ w, h.workspace? n = some w ∧ w.key = key
  keys : h.roster.current.Pairwise fun a b => a.1.isSame b.1 = false

/-- A workspace that is being started. -/
structure Site (h : Hub η) (board : Nat) (crew : List Nat) : Prop where
  opened : board < h.boards.length
  own : ∀ n w, h.workspace? n = some w → w.board ≠ board
  hired : ∀ c ∈ crew, h.boardOf? c = some board
  manned : ∀ c, h.boardOf? c = some board → h.isAlive c = true → c ∈ crew

theorem sound_start (processId timeout : Nat) : (start processId timeout : Hub η).Sound := by
  refine ⟨?_, ?_, ?_, ?_, ?_, ?_, .nil⟩ <;> intros <;> contradiction

/-- Workspaces with one first server are one. -/
theorem Sound.eq_of_primary (sound : h.Sound) {m : Nat} {v : Workspace}
    (found : h.workspace? n = some w) (other : h.workspace? m = some v)
    (same : v.primary = w.primary) : m = n := by
  refine sound.apart m n v w other found ?_
  have board := sound.primary m v other
  rw [same, sound.primary n w found] at board
  exact (Option.some.inj board).symm

theorem Sound.fades (sound : h.Sound) (fades : h.Fades h') : h'.Sound := by
  have boards : ∀ c, h'.boardOf? c = h.boardOf? c := fun c => by
    rw [boardOf?, boardOf?, fades.stamps]
  refine ⟨?_, ?_, ?_, ?_, ?_, ?_, sound.keys.sublist fades.roster⟩
  · intro c board known
    exact fades.boards ▸ sound.opened c board (boards c ▸ known)
  · intro n w' found
    obtain ⟨w, before, rfl | ⟨rfl, -⟩⟩ := fades.old found
    · exact boards _ ▸ sound.primary n _ before
    · exact boards _ ▸ sound.primary n w before
  · intro n w' c found works
    obtain ⟨w, before, rfl | ⟨rfl, -⟩⟩ := fades.old found
    · exact boards c ▸ sound.worker n _ c before works
    · cases works
  · intro n m w' v' found other same
    obtain ⟨w, before, kept⟩ := fades.old found
    obtain ⟨v, before', kept'⟩ := fades.old other
    refine sound.apart n m w v before before' ?_
    rcases kept with rfl | ⟨rfl, -⟩ <;> rcases kept' with rfl | ⟨rfl, -⟩ <;> exact same
  · intro n w' c found known there
    obtain ⟨w, before, kept⟩ := fades.old found
    have was := sound.manned n w c before
    rcases kept with rfl | ⟨rfl, gone⟩
    · exact was (boards c ▸ known) (fades.alive c there)
    · rcases was (boards c ▸ known) (fades.alive c there) with first | second
      · exact .inl first
      · rw [gone c second] at there
        cases there
  · intro key n listed
    obtain ⟨w, found, rfl⟩ := sound.listed key n (fades.roster.subset listed)
    obtain ⟨w', after, same, -⟩ := fades.ages.later found
    exact ⟨w', after, same⟩

theorem Site.fades (site : h.Site board crew) (fades : h.Fades h') : h'.Site board crew := by
  have boards : ∀ c, h'.boardOf? c = h.boardOf? c := fun c => by
    rw [boardOf?, boardOf?, fades.stamps]
  refine ⟨fades.boards ▸ site.opened, ?_, ?_, ?_⟩
  · intro n w' found
    obtain ⟨w, before, rfl | ⟨rfl, -⟩⟩ := fades.old found
    · exact site.own n _ before
    · exact site.own n w before
  · intro c inside
    exact boards c ▸ site.hired c inside
  · intro c known there
    exact site.manned c (boards c ▸ known) (fades.alive c there)

/-- A key that is vacant stays so. -/
theorem Fades.vacant (fades : h.Fades h') (vacant : h.roster.find? key = none) :
    h'.roster.find? key = none := by
  rw [Roster.find?_eq_none] at vacant ⊢
  intro entry listed
  exact vacant entry (fades.roster.subset listed)

/-! ### Shutting down -/

/-- Takes leave of the first server of a workspace. -/
def leave (h : Hub η) (n : Nat) : Hub η :=
  match h.workspace? n with
  | some workspace => h.shutdownChannel workspace.primary
  | none => h

theorem workspace?_setWorkspace (v : Workspace) (found : h.workspace? n = some w) (m : Nat) :
    (h.setWorkspace n v).workspace? m = if n = m then some v else h.workspace? m := by
  rw [workspace?, setWorkspace, List.getElem?_set]
  split
  · rw [if_pos (lt_of_workspace? found)]
  · rfl

theorem stopWorker_of_none (beyond : h.workspace? n = none) : h.stopWorker n = h := by
  rw [stopWorker, takeWorker, beyond]
  rfl

theorem stopWorker_of_found (found : h.workspace? n = some w) :
    h.stopWorker n = (h.setWorkspace n w.takeWorker.1).stopChannel? w.worker := by
  rw [stopWorker, takeWorker, found]
  rfl

theorem works_stopChannel? (h : Hub η) (c : Option Nat) : h.Works (h.stopChannel? c) := by
  cases c with
  | none => exact .refl h
  | some c => exact works_stopChannel h c

theorem isAlive_stopChannel? (h : Hub η) (worker : Option Nat) (c : Nat) :
    (h.stopChannel? worker).isAlive c = (h.isAlive c && worker != some c) := by
  cases worker with
  | none => simp [stopChannel?]
  | some v => rw [stopChannel?, isAlive_stopChannel]; rfl

theorem isAlive_stopWorker (found : h.workspace? n = some w) (c : Nat) :
    (h.stopWorker n).isAlive c = (h.isAlive c && w.worker != some c) := by
  rw [stopWorker_of_found found, isAlive_stopChannel?]
  rfl

theorem workspace?_stopWorker (found : h.workspace? n = some w) (m : Nat) :
    (h.stopWorker n).workspace? m = if n = m then some w.takeWorker.1 else h.workspace? m := by
  rw [stopWorker_of_found found, ← workspace?_setWorkspace _ found, workspace?,
    (works_stopChannel? _ _).workspaces]
  rfl

theorem stopWorker_frame (h : Hub η) (n : Nat) : (h.stopWorker n).roster = h.roster ∧
    (h.stopWorker n).stamps = h.stamps ∧ (h.stopWorker n).tables = h.tables ∧
    (h.stopWorker n).workspaces.length = h.workspaces.length := by
  cases found : h.workspace? n with
  | none => rw [stopWorker_of_none found]; exact ⟨rfl, rfl, rfl, rfl⟩
  | some w =>
      rw [stopWorker_of_found found]
      have works := works_stopChannel? (h.setWorkspace n w.takeWorker.1) w.worker
      exact ⟨works.roster, works.stamps, works.tables,
        (congrArg List.length works.workspaces).trans List.length_set⟩

theorem fades_stopWorker (h : Hub η) (n : Nat) : h.Fades (h.stopWorker n) := by
  obtain ⟨roster, stamps, tables, count⟩ := stopWorker_frame h n
  cases found : h.workspace? n with
  | none => rw [stopWorker_of_none found]; exact .refl h
  | some w =>
      refine ⟨roster ▸ List.Sublist.refl _, stamps, ?_, ?_, count, ?_⟩
      · rw [← length_tables, tables, length_tables]
      · intro c there
        rw [isAlive_stopWorker found] at there
        exact (Bool.and_eq_true_iff.mp there).1
      · intro m v before
        rw [workspace?_stopWorker found]
        by_cases here : n = m
        · subst here
          obtain rfl := Option.some.inj (found.symm.trans before)
          refine .inr ⟨if_pos rfl, ?_⟩
          intro c works
          rw [isAlive_stopWorker found, works, bne_self_eq_false, Bool.and_false]
        · exact .inl (by rw [if_neg here, before])

theorem works_leave (h : Hub η) (n : Nat) : h.Works (h.leave n) := by
  rw [leave]
  cases h.workspace? n with
  | none => exact .refl h
  | some w => exact works_shutdownChannel h w.primary

theorem shutdown_eq (h : Hub η) (n : Nat) : h.shutdown n = (h.stopWorker n).leave n := by
  cases found : h.workspace? n with
  | none => rw [shutdown, found, stopWorker_of_none found, leave, found]
  | some w => rw [shutdown, found, leave, workspace?_stopWorker found, if_pos rfl]; rfl

/-! ### Starting -/

theorem ages_openBoard (h : Hub η) : h.Ages h.openBoard := by
  refine ⟨fun _ listed => .inl listed, List.prefix_refl _, ?_, fun _ _ there => there,
    Nat.le_refl _, fun _ _ found => .inl found⟩
  simp [openBoard]

theorem Sound.openBoard (sound : h.Sound) : h.openBoard.Sound :=
  ⟨fun c board known => Nat.lt_of_lt_of_le (sound.opened c board known) (ages_openBoard h).boards,
    sound.primary, sound.worker, sound.apart, sound.manned, sound.listed, sound.keys⟩

/-- A new set of subscriptions is nobody's. -/
theorem Sound.site (sound : h.Sound) : h.openBoard.Site h.boards.length [] := by
  refine ⟨by simp [Hub.openBoard], ?_, nofun, ?_⟩
  · intro n w found same
    exact Nat.lt_irrefl _ (same ▸ sound.opened _ _ (sound.primary n w found))
  · intro c known
    exact absurd (sound.opened c _ known) (Nat.lt_irrefl _)

variable {more : List (Launch × Nat)}

theorem Hires.ages (hires : h.Hires h' more)
    (alive : ∀ c < h.links.length, h'.isAlive c = true → h.isAlive c = true) : h.Ages h' := by
  refine ⟨?_, hires.stamps ▸ List.prefix_append _ _, ?_, alive, ?_, ?_⟩
  · intro entry listed
    exact .inl (hires.roster ▸ listed)
  · exact Nat.le_of_eq (by rw [← length_tables, ← length_tables, hires.tables])
  · exact Nat.le_of_eq (congrArg List.length hires.workspaces.symm)
  · intro n w found
    exact .inl (by rw [workspace?, hires.workspaces]; exact found)

/-- Whatever was started was started for the site. -/
theorem Hires.boardOf? (hires : h.Hires h' more) (alike : ∀ stamp ∈ more, stamp.2 = board)
    {c b : Nat} (known : h'.boardOf? c = some b) :
    h.boardOf? c = some b ∨ b = board ∧ h.links.length ≤ c := by
  obtain ⟨stamp, found, rfl⟩ := Option.map_eq_some_iff.mp known
  rw [hires.stamps, List.getElem?_append] at found
  split at found
  · exact .inl (Option.map_eq_some_iff.mpr ⟨stamp, found, rfl⟩)
  · next beyond =>
      rw [length_stamps] at beyond
      exact .inr ⟨alike stamp (List.mem_of_getElem? found), Nat.le_of_not_lt beyond⟩

/-- Servers that are started for a site keep the hub in good order. -/
theorem Sound.hires (sound : h.Sound) (site : h.Site board crew) (hires : h.Hires h' more)
    (alike : ∀ stamp ∈ more, stamp.2 = board)
    (alive : ∀ c < h.links.length, h'.isAlive c = true → h.isAlive c = true) : h'.Sound := by
  have ages := hires.ages alive
  have same : ∀ n, h'.workspace? n = h.workspace? n := fun n => by
    rw [workspace?, workspace?, hires.workspaces]
  refine ⟨?_, ?_, ?_, ?_, ?_, ?_, hires.roster ▸ sound.keys⟩
  · intro c b known
    refine Nat.lt_of_lt_of_le ?_ ages.boards
    rcases hires.boardOf? alike known with old | ⟨rfl, -⟩
    · exact sound.opened c b old
    · exact site.opened
  · intro n w found
    exact ages.boardOf? (sound.primary n w (same n ▸ found))
  · intro n w c found works
    exact ages.boardOf? (sound.worker n w c (same n ▸ found) works)
  · intro n m w v found other
    exact sound.apart n m w v (same n ▸ found) (same m ▸ other)
  · intro n w c found known there
    have before := same n ▸ found
    rcases hires.boardOf? alike known with old | ⟨here, -⟩
    · exact sound.manned n w c before old (alive c (lt_of_boardOf? old) there)
    · exact absurd here (site.own n w before)
  · intro key n listed
    obtain ⟨w, found, rfl⟩ := sound.listed key n (hires.roster ▸ listed)
    exact ⟨w, (same n).symm ▸ found, rfl⟩

theorem boardOf?_startChannel {launch : Launch → Option Channel.Outlet} {spec : ServerSpec}
    {root : String} (started : h.startChannel launch spec root board = (h', some n)) :
    h'.boardOf? n = some board := by
  obtain ⟨rfl, hires, -⟩ := startChannel_some started
  rw [boardOf?, hires.stamps, ← length_stamps, List.getElem?_concat_length]
  rfl

/-- A server that is started for a site joins its crew. -/
theorem Site.hires {launch : Launch → Option Channel.Outlet} {spec : ServerSpec} {root : String}
    (site : h.Site board crew)
    (started : h.startChannel launch spec root board = (h', some n)) :
    h'.Site board (crew ++ [n]) := by
  obtain ⟨rfl, hires, alive⟩ := startChannel_some started
  have ages := hires.ages fun c old there => by
    rw [alive, if_neg (Nat.ne_of_gt old)] at there
    exact there
  refine ⟨Nat.lt_of_lt_of_le site.opened ages.boards, ?_, ?_, ?_⟩
  · intro m w found
    rw [workspace?, hires.workspaces] at found
    exact site.own m w found
  · intro c inside
    rcases List.mem_append.mp inside with old | new
    · exact ages.boardOf? (site.hired c old)
    · rw [List.mem_singleton.mp new, boardOf?_startChannel started]
  · intro c known there
    rw [alive] at there
    by_cases new : h.links.length = c
    · exact List.mem_append_right _ (new ▸ List.mem_singleton_self _)
    · rw [if_neg new] at there
      have alike : ∀ stamp ∈ [((⟨h.links.length, spec, root⟩ : Launch), board)], stamp.2 = board :=
        fun stamp only => by rw [List.mem_singleton.mp only]
      refine List.mem_append_left _ (site.manned c ?_ there)
      rcases hires.boardOf? alike known with old | ⟨-, beyond⟩
      · exact old
      · exact absurd (lt_of_isAlive there) (Nat.not_lt_of_le beyond)

/-- The hub with a new workspace, which is entered into the roster. -/
def enlist (h : Hub η) (key : Key) (spec : ServerSpec) (primary worker board : Nat) : Hub η :=
  { h with
    workspaces := h.workspaces ++ [.start key spec primary worker board]
    roster := h.roster.enter key h.workspaces.length }

theorem workspace?_enlist (h : Hub η) (key : Key) (spec : ServerSpec)
    (primary worker board n : Nat) : (h.enlist key spec primary worker board).workspace? n =
      if n = h.workspaces.length then some (.start key spec primary worker board)
      else h.workspace? n := by
  rw [workspace?, enlist]
  split
  · next here => rw [here, List.getElem?_concat_length]
  · next apart =>
      by_cases old : n < h.workspaces.length
      · rw [List.getElem?_append_left old, workspace?]
      · rw [workspace?, List.getElem?_eq_none (Nat.le_of_not_lt old), List.getElem?_eq_none]
        rw [List.length_append]
        exact Nat.lt_of_le_of_ne (Nat.le_of_not_lt old) (Ne.symm apart)

theorem ages_enlist (h : Hub η) (key : Key) (spec : ServerSpec) (primary worker board : Nat) :
    h.Ages (h.enlist key spec primary worker board) := by
  refine ⟨?_, List.prefix_refl _, Nat.le_refl _, fun _ _ there => there, ?_, ?_⟩
  · intro entry listed
    rcases List.mem_append.mp listed with old | new
    · exact .inl old
    · rw [List.mem_singleton.mp new]
      exact .inr (Nat.le_refl _)
  · simp [enlist]
  · intro n w found
    rw [workspace?_enlist, if_neg (Nat.ne_of_lt (lt_of_workspace? found))]
    exact .inl found

/-- A site with a whole crew becomes a workspace. -/
theorem Sound.enlist {spec : ServerSpec} {primary worker : Nat} (sound : h.Sound)
    (site : h.Site board [primary, worker]) (vacant : h.roster.find? key = none) :
    (h.enlist key spec primary worker board).Sound := by
  have cases : ∀ n w, (h.enlist key spec primary worker board).workspace? n = some w →
      n = h.workspaces.length ∧ w = .start key spec primary worker board ∨
        h.workspace? n = some w := by
    intro n w found
    rw [workspace?_enlist] at found
    split at found
    · next here => exact .inl ⟨here, (Option.some.inj found).symm⟩
    · exact .inr found
  refine ⟨sound.opened, ?_, ?_, ?_, ?_, ?_, ?_⟩
  · intro n w found
    rcases cases n w found with ⟨-, rfl⟩ | old
    · exact site.hired primary (by simp)
    · exact sound.primary n w old
  · intro n w c found works
    rcases cases n w found with ⟨-, rfl⟩ | old
    · exact site.hired c (by simp [← Option.some.inj works])
    · exact sound.worker n w c old works
  · intro n m w v found other same
    rcases cases n w found with ⟨rfl, rfl⟩ | old <;> rcases cases m v other with ⟨rfl, rfl⟩ | old'
    · rfl
    · exact absurd same.symm (site.own m v old')
    · exact absurd same (site.own n w old)
    · exact sound.apart n m w v old old' same
  · intro n w c found known there
    rcases cases n w found with ⟨-, rfl⟩ | old
    · rcases List.mem_cons.mp (site.manned c known there) with rfl | second
      · exact .inl rfl
      · exact .inr (congrArg some (List.mem_singleton.mp second).symm)
    · exact sound.manned n w c old known there
  · intro k n listed
    rcases List.mem_append.mp listed with old | new
    · obtain ⟨w, found, same⟩ := sound.listed k n old
      refine ⟨w, ?_, same⟩
      rw [workspace?_enlist, if_neg (Nat.ne_of_lt (lt_of_workspace? found)), found]
    · obtain ⟨rfl, rfl⟩ := Prod.mk.inj (List.mem_singleton.mp new)
      exact ⟨_, by rw [workspace?_enlist, if_pos rfl], rfl⟩
  · refine List.pairwise_append.mpr ⟨sound.keys, List.pairwise_singleton _ _, ?_⟩
    intro entry old last new
    rw [List.mem_singleton.mp new]
    exact Roster.find?_eq_none.mp vacant entry old

/-! ### Subscribing -/

/-- Subscribes a handler to the events of the servers of a workspace. -/
def subscribeTo (h : Hub η) (event : String) (handler : η) (n : Nat) : Hub η :=
  match h.workspace? n with
  | some workspace => (h.subscribe workspace.board event handler).1
  | none => h

theorem fades_subscribeTo (h : Hub η) (event : String) (handler : η) (n : Nat) :
    h.Fades (h.subscribeTo event handler n) := by
  rw [subscribeTo]
  cases h.workspace? n with
  | none => exact .refl h
  | some w =>
      dsimp only
      rw [subscribe]
      cases h.boards[w.board]? with
      | none => exact .refl h
      | some s =>
          exact ⟨List.Sublist.refl _, rfl, List.length_set, fun _ there => there, rfl,
            fun _ _ found => .inl found⟩

end Hub

end EditorBridge
