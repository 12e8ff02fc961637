import EditorBridge.Proofs.Hub.Custody
import EditorBridge.Proofs.Settings.Routes
import EditorBridge.Proofs.Workspace.Notices

/-!
# Where the servers of a workspace come from

A workspace is known by its root and its server program. Whoever asks for it by the extension of a
file is given it as it was started, which may have been for another extension, or before a server
was registered anew (`traced`): it runs what was registered for the extension of the lookup that
started it. So two extensions with one program share its arguments, its environment and its language
(`not_upToDate_shared`), unless all that is registered with the program agrees.
-/

namespace EditorBridge

namespace Hub

open Workspace (Key)

variable {η : Type} {h h' : Hub η} {n : Nat} {key : Key} {spec : ServerSpec}
  {launch : Launch → Option Channel.Outlet}

/-! ### What a lookup starts -/

/-- What the start of a workspace makes new. -/
structure Engages (h h' : Hub η) (key : Key) (spec : ServerSpec) (result : Option Nat) : Prop where
  routes : h'.roster.routes = h.roster.routes
  boards : h.boards.length < h'.boards.length
  stamps : ∃ more, h'.stamps = h.stamps ++ more ∧ ∀ stamp ∈ more,
    stamp.1.spec = spec ∧ stamp.1.root = key.root ∧ stamp.2 = h.boards.length
  workspaces : result = none ∧ h'.workspaces = h.workspaces ∨
    result = some h.workspaces.length ∧ ∃ primary worker,
      h'.workspaces = h.workspaces ++ [.start key spec primary worker h.boards.length]

theorem engages_engage (h : Hub η) (launch : Launch → Option Channel.Outlet) (key : Key)
    (spec : ServerSpec) :
    h.Engages (h.engage launch key spec).1 key spec (h.engage launch key spec).2 := by
  have opens {g : Hub η} {more : List (Launch × Nat)} (hires : h.openBoard.Hires g more) :
      h.boards.length < g.boards.length := by
    rw [← length_tables g, hires.tables, length_tables]
    simp [openBoard]
  rw [engage, startWorkspace]
  rcases first : h.openBoard.startChannel launch spec key.root h.boards.length with ⟨h₁, _ | p⟩
  · obtain ⟨more, hires, alike, -⟩ := startChannel_hires first
    exact ⟨congrArg _ hires.roster, opens hires, ⟨more, hires.stamps, alike⟩,
      .inl ⟨rfl, hires.workspaces⟩⟩
  · obtain ⟨more, hires, alike, -⟩ := startChannel_hires first
    dsimp only
    rcases second : h₁.startChannel launch spec key.root h.boards.length with ⟨h₂, _ | w⟩
    all_goals
      obtain ⟨later, hires', alike', -⟩ := startChannel_hires second
      have both := hires.trans hires'
      have allAlike : ∀ stamp ∈ more ++ later, stamp.1.spec = spec ∧ stamp.1.root = key.root ∧
          stamp.2 = h.boards.length := by
        intro stamp inside
        rcases List.mem_append.mp inside with old | new
        · exact alike stamp old
        · exact alike' stamp new
    · have stopped := both.works (works_stopChannel h₂ p)
      exact ⟨congrArg _ stopped.roster, opens stopped, ⟨_, stopped.stamps, allAlike⟩,
        .inl ⟨rfl, stopped.workspaces⟩⟩
    · have routes : h₂.roster.routes = h.roster.routes := congrArg Roster.routes both.roster
      have opened : h.boards.length < h₂.boards.length := opens both
      refine ⟨routes, opened, ⟨_, both.stamps, allAlike⟩, .inr ⟨?_, p, w, ?_⟩⟩
      · exact congrArg (fun workspaces => some workspaces.length) both.workspaces
      · exact congrArg (· ++ [.start key spec p w h.boards.length]) both.workspaces

/-- A workspace that is there after a start was there before, or is the one that was started. -/
theorem Engages.old {result : Option Nat} {w : Workspace} (engages : h.Engages h' key spec result)
    (found : h'.workspace? n = some w) : h.workspace? n = some w ∨
      result = some n ∧ ∃ primary worker, w = .start key spec primary worker h.boards.length := by
  rw [workspace?] at found ⊢
  rcases engages.workspaces with ⟨-, all⟩ | ⟨given, primary, worker, all⟩
  · exact .inl (all ▸ found)
  · rw [all, List.getElem?_append] at found
    split at found
    · exact .inl found
    · next beyond =>
        obtain ⟨inside, same⟩ := List.getElem?_eq_some_iff.mp found
        have here : n = h.workspaces.length := by
          rw [List.length_singleton] at inside
          omega
        exact .inr ⟨here ▸ given, primary, worker, by simpa using same.symm⟩

/-- A lookup finds a workspace, or it starts one when nothing else is new. -/
theorem workspaceFor_cases (launch : Launch → Option Channel.Outlet) {ext : String} (root : String)
    (known : h.roster.routes.find? ext = some spec) :
    (∃ n w, h.roster.find? ⟨root, spec.binary⟩ = some n ∧ h.workspace? n = some w ∧
        h.workspaceFor launch ext root = (h, some n)) ∨
      ∃ g, h.Fades g ∧ g.roster.routes = h.roster.routes ∧
        h.workspaceFor launch ext root = g.engage launch ⟨root, spec.binary⟩ spec := by
  rw [workspaceFor, known]
  dsimp only
  cases listed : h.roster.find? ⟨root, spec.binary⟩ with
  | none => exact .inr ⟨h, .refl h, rfl, rfl⟩
  | some n =>
      dsimp only
      cases running : h.isRunning n with
      | true =>
          obtain ⟨w, found, -⟩ := (Option.any_eq_true ..).mp running
          exact .inl ⟨n, w, rfl, found, rfl⟩
      | false =>
          refine .inr ⟨h.dismiss ⟨root, spec.binary⟩ n, ?_, ?_, rfl⟩
          · rw [dismiss, shutdown_eq]
            exact ((fades_strike h _).trans (fades_stopWorker _ n)).trans (works_leave _ n).fades
          · rw [dismiss, shutdown_eq, (works_leave _ n).roster, (stopWorker_frame _ n).1]
            rfl

/-- A lookup is given the workspace for its root and for the program that is registered. -/
theorem key_of_workspaceFor (sound : h.Sound) {ext root : String}
    (known : h.roster.routes.find? ext = some spec)
    (given : (h.workspaceFor launch ext root).2 = some n) :
    ∃ w, (h.workspaceFor launch ext root).1.workspace? n = some w ∧
      w.key.isSame ⟨root, spec.binary⟩ = true := by
  rcases workspaceFor_cases launch root known with
    ⟨m, w, listed, there, found⟩ | ⟨g, -, -, started⟩
  · rw [found] at given ⊢
    obtain rfl := Option.some.inj given
    obtain ⟨key, same, inside⟩ := Roster.mem_of_find? listed
    obtain ⟨v, here, rfl⟩ := sound.listed key m inside
    exact ⟨v, here, same⟩
  · have engages := engages_engage g launch ⟨root, spec.binary⟩ spec
    rw [← started] at engages
    rcases engages.workspaces with ⟨failed, -⟩ | ⟨worked, primary, worker, all⟩
    · rw [failed] at given
      cases given
    · rw [worked] at given
      obtain rfl := Option.some.inj given
      refine ⟨.start ⟨root, spec.binary⟩ spec primary worker g.boards.length, ?_, ?_⟩
      · rw [workspace?, all, List.getElem?_concat_length]
      · exact Key.isSame_refl ⟨root, spec.binary⟩

/-! ### What is done one after the other -/

/-- What is done with a hub, and what servers do meanwhile: one is registered for some extensions, a
workspace is looked up, something arrives from a server, or a server dies. -/
inductive Move where
  | register (exts : List String) (spec : ServerSpec)
  | lookUp (launch : Launch → Option Channel.Outlet) (ext root : String)
  | arrive (c : Nat) (a : Channel.Arrival)
  | vanish (c : Nat)

/-- Does it. -/
def Move.run (h : Hub η) : Move → Hub η
  | register exts spec => h.register exts spec
  | lookUp launch ext root => (h.workspaceFor launch ext root).1
  | arrive c a => h.arrive c a
  | vanish c => h.vanish c

/-- The hub after all that has been done. -/
def after (h : Hub η) (moves : List Move) : Hub η :=
  moves.foldl Move.run h

/-- The server that has been registered last for an extension. -/
def lastRegistered (ext : String) (moves : List Move) : Option ServerSpec :=
  moves.foldl (fun last move =>
    match move with
    | .register exts spec =>
        if plainExtension ext ∈ exts.map plainExtension then some spec else last
    | _ => last) none

/-- Whether a workspace was started by one of the lookups, as a server that was registered last at
that time. -/
def Origin (h : Hub η) (moves : List Move) (n : Nat) (w : Workspace) : Prop :=
  ∃ before launch ext root later, moves = before ++ .lookUp launch ext root :: later ∧
    lastRegistered ext before = some w.spec ∧ w.key = ⟨root, w.spec.binary⟩ ∧
    ((h.after before).workspaceFor launch ext root).2 = some n

theorem after_concat (h : Hub η) (moves : List Move) (move : Move) :
    h.after (moves ++ [move]) = move.run (h.after moves) := by
  rw [after, List.foldl_append]
  rfl

theorem lastRegistered_concat (ext : String) (moves : List Move) (move : Move) :
    lastRegistered ext (moves ++ [move]) =
      match move with
      | .register exts spec =>
          if plainExtension ext ∈ exts.map plainExtension then some spec
          else lastRegistered ext moves
      | _ => lastRegistered ext moves := by
  rw [lastRegistered, List.foldl_append]
  rfl

/-- What is registered last has been registered. -/
theorem exists_of_lastRegistered {ext : String} {moves : List Move}
    (last : lastRegistered ext moves = some spec) : ∃ exts, .register exts spec ∈ moves := by
  induction moves using List.reverseRecOn with
  | nil => cases last
  | append_singleton moves move ih =>
      have earlier (same : lastRegistered ext moves = some spec) :
          ∃ exts, .register exts spec ∈ moves ++ [move] := by
        obtain ⟨exts, inside⟩ := ih same
        exact ⟨exts, List.mem_append_left _ inside⟩
      rw [lastRegistered_concat] at last
      cases move with
      | register exts other =>
          dsimp only at last
          split at last
          · cases last
            exact ⟨exts, List.mem_append_right _ (List.mem_singleton_self _)⟩
          · exact earlier last
      | lookUp launch ext root => exact earlier last
      | arrive c a => exact earlier last
      | vanish c => exact earlier last

theorem Origin.concat {moves : List Move} {w : Workspace} (origin : h.Origin moves n w)
    (move : Move) : h.Origin (moves ++ [move]) n w := by
  obtain ⟨before, launch, ext, root, later, rfl, more⟩ := origin
  exact ⟨before, launch, ext, root, later ++ [move], by simp, more⟩

/-- What is always so of the workspaces, of all that has been done from the start. -/
structure Accounted (h₀ : Hub η) (moves : List Move) (h : Hub η) : Prop where
  sound : h.Sound
  routes : ∀ ext, h.roster.routes.find? ext = lastRegistered ext moves
  origin : ∀ n w, h.workspace? n = some w → h₀.Origin moves n w
  servers : ∀ n w stamp, h.workspace? n = some w → stamp ∈ h.stamps → stamp.2 = w.board →
    stamp.1.spec = w.spec ∧ stamp.1.root = w.key.root

variable {h₀ : Hub η} {moves : List Move}

/-- What was accounted for is so after something that makes nothing new. -/
theorem Accounted.fades (accounted : h₀.Accounted moves h) (fades : h.Fades h') (move : Move)
    (routes : ∀ ext, h'.roster.routes.find? ext = lastRegistered ext (moves ++ [move])) :
    h₀.Accounted (moves ++ [move]) h' := by
  refine ⟨accounted.sound.fades fades, routes, ?_, ?_⟩
  · intro n w' found
    obtain ⟨w, before, rfl | ⟨rfl, -⟩⟩ := fades.old found
    · exact (accounted.origin n _ before).concat move
    · exact (accounted.origin n w before).concat move
  · intro n w' stamp found inside same
    rw [fades.stamps] at inside
    obtain ⟨w, before, rfl | ⟨rfl, -⟩⟩ := fades.old found
    · exact accounted.servers n _ stamp before inside same
    · exact accounted.servers n w stamp before inside same

theorem Sound.lt_of_mem_stamps (sound : h.Sound) {stamp : Launch × Nat}
    (inside : stamp ∈ h.stamps) : stamp.2 < h.boards.length := by
  obtain ⟨c, there⟩ := List.mem_iff_getElem?.mp inside
  exact sound.opened c stamp.2 (by rw [boardOf?, there]; rfl)

/-- A workspace that is started is accounted for by the lookup that starts it. -/
theorem Accounted.lookUp {ext root : String} (accounted : h₀.Accounted moves (h₀.after moves)) :
    h₀.Accounted (moves ++ [.lookUp launch ext root])
      ((h₀.after moves).workspaceFor launch ext root).1 := by
  have sound := accounted.sound.workspaceFor launch ext root
  have same : ∀ e, lastRegistered e (moves ++ [.lookUp launch ext root]) = lastRegistered e moves :=
    fun e => lastRegistered_concat e moves _
  cases known : (h₀.after moves).roster.routes.find? ext with
  | none =>
      have nothing : (h₀.after moves).workspaceFor launch ext root = (h₀.after moves, none) := by
        rw [workspaceFor, known]
      rw [nothing]
      exact accounted.fades (.refl _) _ fun e => (accounted.routes e).trans (same e).symm
  | some spec =>
      rcases workspaceFor_cases launch root known with
        ⟨n, w, -, -, found⟩ | ⟨g, fades, routes, started⟩
      · rw [found]
        exact accounted.fades (.refl _) _ fun e => (accounted.routes e).trans (same e).symm
      · have before := accounted.fades fades (.lookUp launch ext root) fun e => by
          rw [routes, same, accounted.routes]
        have engages := engages_engage g launch ⟨root, spec.binary⟩ spec
        rw [← started] at engages
        obtain ⟨more, stamps, alike⟩ := engages.stamps
        refine ⟨sound, ?_, ?_, ?_⟩
        · intro e
          rw [engages.routes, routes, same, accounted.routes]
        · intro n w found
          rcases engages.old found with old | ⟨given, p, v, rfl⟩
          · exact before.origin n w old
          · exact ⟨moves, launch, ext, root, [], rfl, (accounted.routes ext).symm.trans known, rfl,
              given⟩
        · intro n w stamp found inside board
          -- The new servers have a new set of subscriptions, which tells them from the others.
          rw [stamps] at inside
          rcases engages.old found with old | ⟨given, p, v, rfl⟩ <;>
            rcases List.mem_append.mp inside with earlier | new
          · exact before.servers n w stamp old earlier board
          · have within := before.sound.opened _ _ (before.sound.primary n w old)
            rw [← board, (alike stamp new).2.2] at within
            exact absurd within (Nat.lt_irrefl _)
          · have within := before.sound.lt_of_mem_stamps earlier
            rw [board] at within
            exact absurd within (Nat.lt_irrefl _)
          · exact ⟨(alike stamp new).1, (alike stamp new).2.1⟩

theorem Accounted.step (accounted : h₀.Accounted moves (h₀.after moves)) (move : Move) :
    h₀.Accounted (moves ++ [move]) (move.run (h₀.after moves)) := by
  cases move with
  | register exts spec =>
      have fades : (h₀.after moves).Fades ((h₀.after moves).register exts spec) :=
        fades_roster (List.Sublist.refl _)
      refine accounted.fades fades _ fun ext => ?_
      rw [lastRegistered_concat]
      dsimp only
      rw [← accounted.routes ext]
      exact Routes.find?_register _ exts spec ext
  | lookUp launch ext root => exact accounted.lookUp
  | arrive c a =>
      have works := works_arrive (h₀.after moves) c a
      refine accounted.fades works.fades _ fun ext => ?_
      rw [lastRegistered_concat, works.roster]
      exact accounted.routes ext
  | vanish c =>
      have works := works_vanish (h₀.after moves) c
      refine accounted.fades works.fades _ fun ext => ?_
      rw [lastRegistered_concat, works.roster]
      exact accounted.routes ext

theorem accounted_after (processId timeout : Nat) (moves : List Move) :
    (start processId timeout : Hub η).Accounted moves ((start processId timeout).after moves) := by
  induction moves using List.reverseRecOn with
  | nil => exact ⟨sound_start processId timeout, fun _ => rfl, nofun, nofun⟩
  | append_singleton moves move ih =>
      rw [after_concat]
      exact ih.step move

/-! ### What a lookup is given -/

/-- The language of the file that a message opens, as a server reads it. -/
def languageTold? (message : Json) : Option String :=
  (Practice.Message.ofJson? message).bind fun m =>
    if m.method = some Kind.openFile.method then
      ((m.params.get? "textDocument").bind (Json.get? "languageId")).bind Json.string?
    else none

/-- A file whose language the editor does not name is told of in the language of the workspace. -/
theorem languageTold?_openFile (w : Workspace) (seq : Int64) {opened : OpenedFile} {uri : String}
    (located : Uri.ofFileStrict? opened.file = some uri) (unnamed : opened.languageId = none) :
    ∃ message, (w.prepare ⟨seq, .openFile opened⟩).2.bind Command.wire? = some message ∧
      languageTold? message = some (w.spec.languageId.getD defaultLanguage) := by
  rw [Workspace.prepare_openFile, Option.bind_some, Command.wire?_of_notice rfl,
    Request.toParams?, OpenedFile.toParams?]
  dsimp only
  rw [located, unnamed]
  refine ⟨_, rfl, ?_⟩
  rw [languageTold?, Practice.Message.ofJson?_notification, Option.bind_some]
  have named (members : List (String × Json)) : (((Json.object [("textDocument",
      .ofMembers members)]).get? "textDocument").bind (Json.get? "languageId")) =
        Json.lookup "languageId" members.reverse := by
    rw [Json.get?, Json.lookup, if_pos rfl, Option.bind_some, Json.ofMembers, Json.get?,
      Json.lookup_sortMembers]
  dsimp only
  rw [if_pos (by rfl), named]
  rfl

/-- What is known of the workspace that a lookup is given, when all has been done from the start. It
is the workspace for the root and for the program of the server that is registered (`found`). It
runs what was registered last for the extension of the lookup that started it (`origin`). All its
servers were started so (`servers`). It runs the server that is registered, if only that is
registered with its program (`agrees`). A file whose language is not named is told of in the
language that was registered (`tells`). -/
structure Traced (h₀ : Hub η) (moves : List Move) (lookUp : Move) (spec : ServerSpec)
    (root : String) (n : Nat) (w : Workspace) : Prop where
  found : (h₀.after (moves ++ [lookUp])).workspace? n = some w ∧
    w.key.isSame ⟨root, spec.binary⟩ = true ∧ w.spec.binary = spec.binary
  origin : h₀.Origin (moves ++ [lookUp]) n w
  servers : ∀ stamp ∈ (h₀.after (moves ++ [lookUp])).stamps, stamp.2 = w.board →
    stamp.1.spec = w.spec ∧ stamp.1.root = w.key.root
  agrees : (∀ exts other, .register exts other ∈ moves → other.binary = spec.binary →
    other = spec) → w.spec = spec
  tells : ∀ seq opened waits uri sent, Uri.ofFileStrict? opened.file = some uri →
    opened.languageId = none → (h₀.after (moves ++ [lookUp])).Live n w sent →
      ∃ v message, ((h₀.after (moves ++ [lookUp])).send n ⟨⟨seq, .openFile opened⟩, waits⟩).Live
          n v (sent ++ [message]) ∧
        languageTold? message = some (w.spec.languageId.getD defaultLanguage)

theorem traced (processId timeout : Nat) (moves : List Move)
    (launch : Launch → Option Channel.Outlet) (ext root : String)
    (given : (((start processId timeout : Hub η).after moves).workspaceFor launch ext root).2 =
      some n) :
    ∃ spec w, lastRegistered ext moves = some spec ∧
      (start processId timeout : Hub η).Traced moves (.lookUp launch ext root) spec root n w := by
  have before := @accounted_after η processId timeout moves
  have now := @accounted_after η processId timeout (moves ++ [.lookUp launch ext root])
  rcases known : ((start processId timeout : Hub η).after moves).roster.routes.find? ext with
    _ | spec
  · rw [workspaceFor, known] at given
    cases given
  · obtain ⟨w, found, same⟩ := key_of_workspaceFor before.sound known given
    have there : ((start processId timeout : Hub η).after
        (moves ++ [.lookUp launch ext root])).workspace? n = some w := by
      rw [after_concat]
      exact found
    have origin := now.origin n w there
    have program : w.spec.binary = spec.binary := by
      obtain ⟨_, _, _, _, _, _, _, key, _⟩ := origin
      rw [key] at same
      exact (Key.isSame_iff.mp same).2
    refine ⟨spec, w, (before.routes ext).symm.trans known, ⟨there, same, program⟩, origin, ?_, ?_,
      ?_⟩
    · intro stamp inside
      exact now.servers n w stamp there inside
    · intro all
      obtain ⟨earlier, _, e, _, later, split, last, -, -⟩ := origin
      obtain ⟨exts, inside⟩ := exists_of_lastRegistered last
      refine all exts w.spec ?_ program
      have among : .register exts w.spec ∈ moves ++ [.lookUp launch ext root] :=
        split ▸ List.mem_append_left _ inside
      simpa using among
    · intro seq opened waits uri sent located unnamed live
      obtain ⟨message, written, told⟩ := languageTold?_openFile w seq located unnamed
      have sends := live_send live (s := ⟨⟨seq, .openFile opened⟩, waits⟩) rfl
      rw [written] at sends
      exact ⟨_, message, sends, told⟩

/-- Two extensions of one server program, each with a language of its own, and a first lookup. -/
def dialects : List Move :=
  [.register ["ts"] ⟨"server", [], [], some "typescript"⟩,
    .register ["tsx"] ⟨"server", [], [], some "typescriptreact"⟩,
    .lookUp (fun _ => some .start) "ts" "/w"]

theorem traced_dialects :
    (((start 1 2500 : Hub Unit).after dialects).workspaceFor (fun _ => some .start) "tsx" "/w").2 =
        some 0 ∧
      ∃ spec w, lastRegistered "tsx" dialects = some spec ∧
        (start 1 2500 : Hub Unit).Traced dialects (.lookUp (fun _ => some .start) "tsx" "/w") spec
          "/w" 0 w :=
  ⟨rfl, traced 1 2500 dialects (fun _ => some .start) "tsx" "/w" rfl⟩

/-- Whether a lookup is given a workspace that runs the server that is registered. -/
def UpToDate (h₀ : Hub η) (moves : List Move) (launch : Launch → Option Channel.Outlet)
    (ext root : String) : Prop :=
  ∀ n w, ((h₀.after moves).workspaceFor launch ext root).2 = some n →
    ((h₀.after moves).workspaceFor launch ext root).1.workspace? n = some w →
      lastRegistered ext moves = some w.spec

/-- The second extension is given the workspace of the first one, and its files are told of in the
language of the first. -/
theorem not_upToDate_shared :
    ¬ (start 1 2500 : Hub Unit).UpToDate dialects (fun _ => some .start) "tsx" "/w" ∧
      ((((start 1 2500 : Hub Unit).after
        (dialects ++ [.lookUp (fun _ => some .start) "tsx" "/w"])).send 0
          ⟨⟨1, .openFile ⟨"/w/a.tsx", "", none, none⟩⟩, false⟩).channel? 0).map
            (fun channel => channel.outlet.sent.filterMap languageTold?) =
              some ["typescript"] := by
  refine ⟨?_, ?_⟩
  · intro all
    have told := congrArg (Option.map ServerSpec.languageId) (all 0 _ rfl rfl)
    exact absurd told (by decide)
  · decide +kernel

end Hub

end EditorBridge
