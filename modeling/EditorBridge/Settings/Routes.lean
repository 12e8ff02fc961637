import EditorBridge.Settings.Configuration

/-!
# Routes

Which language server is responsible for the files with an extension. Points at the start of an
extension do not count, and the last server that is registered for an extension is the one.
-/

namespace EditorBridge

/-- How a language server is started (`ServerSpec`): the name, the arguments and the environment of
the program, where the empty environment stands for that of the bridge, and the language of the
files, if it is known. -/
structure ServerSpec where
  binary : String
  args : List String
  env : Environment
  languageId : Option String
  deriving DecidableEq, Repr

/-- How the server of a client is started, by a process with an environment
(`ClientConfig::server_spec`). -/
def Client.spec? (c : Client) (processEnv : Environment) : Option ServerSpec :=
  (c.environment? processEnv).map fun env => ⟨c.binary, c.args, env, c.languageId⟩

/-- The extension without the points at its start (`normalize_extension`). -/
def plainExtension (ext : String) : String :=
  String.ofList (Client.withoutPoints ext.toList)

/-- The servers by extension, no extension twice (`ClientManager`). -/
abbrev Routes := List (String × ServerSpec)

namespace Routes

/-- The server for an extension without points at its start. -/
def lookup (ext : String) : Routes → Option ServerSpec
  | [] => none
  | (key, spec) :: rest => if key = ext then some spec else lookup ext rest

/-- The routes with the server for an extension set. -/
def set (ext : String) (spec : ServerSpec) : Routes → Routes
  | [] => [(ext, spec)]
  | (key, old) :: rest =>
      if key = ext then (ext, spec) :: rest else (key, old) :: set ext spec rest

/-- The server for an extension (`ClientManager::get_client`). -/
def find? (routes : Routes) (ext : String) : Option ServerSpec :=
  lookup (plainExtension ext) routes

/-- Whether there is a server for an extension (`ClientManager::has_extension`). -/
def contains (routes : Routes) (ext : String) : Bool :=
  (routes.find? ext).isSome

/-- Registers a server for some extensions (`ClientManager::register_extensions`). -/
def register (routes : Routes) (exts : List String) (spec : ServerSpec) : Routes :=
  exts.foldl (fun routes ext => set (plainExtension ext) spec routes) routes

/-- Registers the servers of clients, by a process with an environment (`Config::register_all`). -/
def ofClients (processEnv : Environment) (clients : List Client) :
    Except ConfigurationError Routes :=
  clients.foldlM (fun routes client =>
    match client.spec? processEnv with
    | some spec => .ok (routes.register client.fileExts spec)
    | none => .error (.invalidClient client.binary)) []

theorem lookup_set_self (ext : String) (spec : ServerSpec) (routes : Routes) :
    lookup ext (set ext spec routes) = some spec := by
  induction routes with
  | nil => simp [set, lookup]
  | cons route rest ih =>
      obtain ⟨key, old⟩ := route
      simp only [set]
      split
      · simp [lookup]
      · next different => simp [lookup, different, ih]

theorem lookup_set_of_ne {ext other : String} (spec : ServerSpec) (routes : Routes)
    (different : other ≠ ext) : lookup other (set ext spec routes) = lookup other routes := by
  induction routes with
  | nil => simp [set, lookup, Ne.symm different]
  | cons route rest ih =>
      obtain ⟨key, old⟩ := route
      simp only [set]
      split
      · next same => subst same; simp [lookup, Ne.symm different]
      · simp [lookup, ih]

end Routes

end EditorBridge
