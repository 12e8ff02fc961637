import EditorBridge.Console.Setup
import EditorBridge.Proofs.Console.Session
import EditorBridge.Proofs.Hub.Hiring
import EditorBridge.Proofs.Hub.Provenance

/-!
# Files and clients

What a bridge makes of the file of a command goes by the clients that it was set up with: those of
its configuration, and after them those of its command line. Nothing that happens in a session
changes the routes, so that the last client for the extension of a file is responsible for it from
the first line to the last one, and a file without a client is never served (`goesByClients`).
-/

namespace EditorBridge

open Client (IsLastFor)

namespace Hub

variable {η : Type} {h h' : Hub η} {launch : Launch → Option Channel.Outlet} {ext root : String}
  {spec : ServerSpec} {n : Nat}

/-- Whether a lookup goes by a server: it finds the workspace that is listed for the program of the
server, or whatever it starts is this server. -/
def LooksUp (h : Hub η) (launch : Launch → Option Channel.Outlet) (ext root : String)
    (spec : ServerSpec) : Prop :=
  (∃ n, h.roster.find? ⟨root, spec.binary⟩ = some n ∧
      h.workspaceFor launch ext root = (h, some n)) ∨
    ∃ more, (h.workspaceFor launch ext root).1.stamps = h.stamps ++ more ∧
      ∀ stamp ∈ more, stamp.1.spec = spec ∧ stamp.1.root = root

theorem looksUp_of_find? (known : h.roster.routes.find? ext = some spec) :
    h.LooksUp launch ext root spec := by
  rcases workspaceFor_cases launch root known with
    ⟨n, w, listed, -, found⟩ | ⟨g, fades, -, started⟩
  · exact .inl ⟨n, listed, found⟩
  · obtain ⟨more, stamps, alike⟩ := (engages_engage g launch ⟨root, spec.binary⟩ spec).stamps
    refine .inr ⟨more, ?_, fun stamp inside => ⟨(alike stamp inside).1, (alike stamp inside).2.1⟩⟩
    rw [started, stamps, fades.stamps]

theorem workspaceFor_of_unknown (unknown : h.roster.routes.find? ext = none) :
    h.workspaceFor launch ext root = (h, none) := by
  rw [workspaceFor, unknown]

/-! ### What leaves the routes alone -/

theorem routes_workspaceFor (h : Hub η) (launch : Launch → Option Channel.Outlet)
    (ext root : String) :
    (h.workspaceFor launch ext root).1.roster.routes = h.roster.routes := by
  cases known : h.roster.routes.find? ext with
  | none => rw [workspaceFor_of_unknown known]
  | some spec =>
      rcases workspaceFor_cases launch root known with ⟨n, w, -, -, found⟩ | ⟨g, -, same, started⟩
      · rw [found]
      · rw [started, (engages_engage g launch _ spec).routes, same]

theorem roster_onChannel {α : Type} (n : Nat) (otherwise : α)
    (act : Channel → Channel × List Channel.Effect × α) :
    (h.onChannel n otherwise act).1.roster = h.roster := by
  rw [onChannel]
  cases h.links[n]? with
  | none => rfl
  | some link => exact (works_foldl_note link.board _ _).roster

theorem roster_prepare (h : Hub η) (n : Nat) (command : Command) :
    (h.prepare n command).1.roster = h.roster := by
  rw [prepare]
  cases h.workspace? n <;> rfl

theorem roster_tell (h : Hub η) (n : Nat) (command : Command) :
    (h.tell n command).1.roster = h.roster := by
  rw [tell, ← roster_prepare h n command]
  rcases h.prepare n command with ⟨h', _ | ⟨channel, ready⟩⟩
  · rfl
  · exact roster_onChannel ..

theorem routes_stopAll (h : Hub η) : h.stopAll.roster.routes = h.roster.routes := by
  have shut (entries : List (Workspace.Key × Nat)) (g : Hub η) :
      (entries.foldl (fun g entry => g.shutdown entry.2) g).roster = g.roster := by
    induction entries generalizing g with
    | nil => rfl
    | cons entry entries ih => rw [List.foldl_cons, ih, roster_shutdown]
  rw [stopAll, shut]

end Hub

namespace Console

/-! ### Setting up -/

/-- The clients that a bridge is set up with: those of its configuration, and after them those of
its command line. -/
def clients? (here : Surroundings) (options : Options) : Option (List Client) :=
  match Configuration.load here.read here.userFile options.config here.env,
      options.servers.mapM Client.ofSpec with
  | .ok configuration, .ok added => some (configuration.clients ++ added)
  | _, _ => none

theorem exists_of_bind {ε α β : Type} {x : Except ε α} {f : α → Except ε β} {b : β}
    (done : x >>= f = .ok b) : ∃ a, x = .ok a ∧ f a = .ok b := by
  cases x with
  | error why => cases done
  | ok a => exact ⟨a, rfl, done⟩

theorem eq_ok_of_mapError {ε ε' α : Type} {x : Except ε α} {f : ε → ε'} {a : α}
    (done : x.mapError f = .ok a) : x = .ok a := by
  cases x with
  | error why => cases done
  | ok a' => exact congrArg _ (Except.ok.inj done)

/-- A bridge is set up with the routes of its clients. -/
theorem routes_of_setUp {here : Surroundings} {options : Options} {setup : Setup}
    {clients : List Client} (given : clients? here options = some clients)
    (done : setUp here options = .ok setup) :
    Routes.ofClients here.env clients = .ok setup.routes := by
  obtain ⟨configuration, loaded, done⟩ := exists_of_bind done
  obtain ⟨added, read, done⟩ := exists_of_bind done
  obtain ⟨root, -, done⟩ := exists_of_bind done
  obtain ⟨routes, registered, done⟩ := exists_of_bind done
  obtain rfl := Except.ok.inj done
  rw [clients?, eq_ok_of_mapError loaded, eq_ok_of_mapError read] at given
  obtain rfl := Option.some.inj given
  exact eq_ok_of_mapError registered

namespace Session

variable {s s' : Session} {processEnv : Environment} {clients : List Client}

/-! ### Sessions -/

/-- Nothing that happens in a session changes the routes. -/
theorem Step.routes (step : Step s s') : s'.hub.roster.routes = s.hub.roster.routes := by
  have looked {launch : Launch → Option Channel.Outlet} {ext root : String} {hub : Hub Unit}
      {result : Option Nat} (found : s.hub.workspaceFor launch ext root = (hub, result)) :
      hub.roster.routes = s.hub.roster.routes := by
    rw [← Hub.routes_workspaceFor s.hub launch ext root, found]
  have prepared {n : Nat} {command : Command} {hub : Hub Unit} {result : Option (Nat × Command)}
      (complete : s.hub.prepare n command = (hub, result)) :
      hub.roster.routes = s.hub.roster.routes := by
    rw [← Hub.roster_prepare s.hub n command, complete]
  have acted {α : Type} {n : Nat} {otherwise answer : α} {hub : Hub Unit}
      {act : Channel → Channel × List Channel.Effect × α}
      (form : s.hub.onChannel n otherwise act = (hub, answer)) :
      hub.roster.routes = s.hub.roster.routes := by
    rw [← Hub.roster_onChannel (h := s.hub) n otherwise act, form]
  cases step with
  | unserved _ _ _ _ _ found => exact looked found
  | ignored _ _ _ _ _ found => exact looked found
  | served _ _ _ _ found => exact looked found
  | @told command workspace hub isWritten task isNotice told =>
      have same := Hub.roster_tell s.hub workspace command
      rw [told] at same
      exact congrArg _ same
  | died _ fails => exact prepared fails
  | prepared _ _ _ complete => exact (prepared complete :)
  | refused _ _ out => exact acted out
  | enrolled _ _ entered => exact acted entered
  | written _ posted => exact acted posted
  | unwritten _ posted => exact acted posted
  | abandoned => exact congrArg _ (Hub.roster_onChannel ..)
  | arrived => exact congrArg _ (Hub.roster_onChannel ..)
  | disturbed => exact congrArg _ (Hub.roster_onChannel ..)
  | closed => exact Hub.routes_stopAll _
  | _ => rfl

/-- The routes of a session are those that it was started with. -/
theorem routes_of_run {processId timeout : Nat} {routes : Routes} {root : String}
    {lines : List String} (run : Run (start processId timeout routes root lines) s) :
    s.hub.roster.routes = routes := by
  induction run with
  | refl => rfl
  | tail _ step ih => rw [step.routes, ih]

/-- Whether a session goes by clients in what it makes of files. The last client for the extension
of a file is responsible for it (`last`). There is a server for an extension if there is a client
for it (`contains`). A query for a file without a client is answered with a failure, and nothing
else is made of a command for such a file (`unserved`). -/
structure GoesBy (s : Session) (processEnv : Environment) (clients : List Client) : Prop where
  last : ∀ ext c, IsLastFor clients ext c →
    ∃ spec, c.spec? processEnv = some spec ∧ s.hub.roster.routes.find? ext = some spec ∧
      ∀ launch root, s.hub.LooksUp launch ext root spec
  contains : ∀ ext, s.hub.roster.routes.contains ext = true ↔ ∃ c ∈ clients, c.IsFor ext
  unserved : ∀ launch now line command, Command.parse? line = some command →
    (∀ c ∈ clients, ¬ c.IsFor (extensionOf command.request.file)) →
      take launch now line s.hub s.console = (s.hub, some <|
        if command.kind.isQuery then
          s.console.reply (Reply.failure command.kind.name command.seq
            ("no language server for '." ++ extensionOf command.request.file ++ "' files"))
        else s.console)

/-- A session whose routes serve clients goes by them. -/
theorem goesBy_of_serves (serves : s.hub.roster.routes.Serves processEnv clients)
    (built : ∀ c ∈ clients, (c.environment? processEnv).isSome) : s.GoesBy processEnv clients := by
  refine ⟨?_, serves.contains_iff built, ?_⟩
  · intro ext c isLast
    have known := built c isLast.mem.1
    rw [← Client.isSome_spec?] at known
    obtain ⟨spec, known⟩ := Option.isSome_iff_exists.mp known
    have found := (serves.last ext c isLast).trans known
    exact ⟨spec, known, found, fun _ _ => Hub.looksUp_of_find? found⟩
  · intro launch now line command read nobody
    have nothing : s.hub.workspaceFor launch (extensionOf command.request.file) s.console.root =
        (s.hub, none) :=
      Hub.workspaceFor_of_unknown (serves.none _ nobody)
    rw [take, read]
    dsimp only
    rw [handle, nothing]
    dsimp only
    split <;> rfl

/-- Clients whose environments can be built are registered in their order, and a bridge that is set
up with them goes by them whatever happens. -/
theorem goesByClients (processEnv : Environment) (clients : List Client)
    (built : ∀ c ∈ clients, (c.environment? processEnv).isSome) :
    ∃ routes, Routes.ofClients processEnv clients = .ok routes ∧
      (∀ here options setup, here.env = processEnv → clients? here options = some clients →
        setUp here options = .ok setup → setup.routes = routes) ∧
      ∀ processId timeout root lines s,
        Run (start processId timeout routes root lines) s → s.GoesBy processEnv clients := by
  obtain ⟨routes, done, serves⟩ := Routes.ofClients_of_built built
  refine ⟨routes, done, ?_, ?_⟩
  · rintro here options setup rfl given started
    exact Except.ok.inj ((routes_of_setUp given started).symm.trans done)
  · intro processId timeout root lines s run
    rw [← routes_of_run run] at serves
    exact goesBy_of_serves serves built

/-- A client for two extensions. -/
def tsserver : Client :=
  ⟨"tsserver", [], ["js", ".ts"], [], [], none⟩

/-- A client for one of them, with other points at its start. -/
def deno : Client :=
  ⟨"deno", ["lsp"], ["..ts"], [], [], none⟩

theorem goesByClients_deno :
    (∀ c ∈ [tsserver, deno], (c.environment? []).isSome) ∧
      ∃ routes, Routes.ofClients [] [tsserver, deno] = .ok routes ∧
        routes.find? "ts" = some ⟨"deno", ["lsp"], [], none⟩ ∧
        routes.find? ".js" = some ⟨"tsserver", [], [], none⟩ ∧ routes.contains "py" = false := by
  have built : ∀ c ∈ [tsserver, deno], (c.environment? []).isSome := by decide
  have lastTs : IsLastFor [tsserver, deno] "ts" deno :=
    ⟨[tsserver], [], rfl, by decide, nofun⟩
  have lastJs : IsLastFor [tsserver, deno] ".js" tsserver :=
    ⟨[], [deno], rfl, by decide, by decide⟩
  obtain ⟨routes, done, -, sessions⟩ := goesByClients [] [tsserver, deno] built
  have goes := sessions 1 2000 "/w" [] _ .refl
  obtain ⟨spec, runs, found, -⟩ := goes.last "ts" deno lastTs
  obtain ⟨spec', runs', found', -⟩ := goes.last ".js" tsserver lastJs
  refine ⟨built, routes, done, found.trans runs.symm, found'.trans runs'.symm, ?_⟩
  exact Bool.eq_false_iff.mpr fun there => absurd ((goes.contains "py").mp there) (by decide)

end Session

end Console

end EditorBridge
