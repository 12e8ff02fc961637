import EditorBridge.Console.Options
import EditorBridge.Settings.Routes

/-!
# Setting up the bridge

What the bridge needs to know before it reads its first line, put together from its command line,
its configuration and its surroundings.
-/

namespace EditorBridge.Console

/-- Where the bridge runs: the text of the file with a path, if there is one, the path of the user's
configuration file, the environment, the directory that a path leads to, by its path from the root
directory, and the path of the working directory. -/
structure Surroundings where
  read : String → Option String
  userFile : String
  env : Environment
  directory? : String → Option String
  workingDirectory : String

/-- What the bridge needs to know before it starts (`main`): how long an answer is waited for, in
milliseconds, the servers by extension, and the root of the files. -/
structure Setup where
  timeout : Nat
  routes : Routes
  root : String
  deriving Repr

/-- Why the bridge does not start (`main`): there is no valid configuration, a server on the command
line is not well-formed, or the root is no directory. -/
inductive SetupError where
  | configuration (reason : ConfigurationError)
  | server (reason : Client.SpecError)
  | root (path : String)
  deriving DecidableEq, Repr

/-- The exit code of a bridge that does not start (`main`). -/
def SetupError.exitCode : SetupError → Nat
  | _ => 1

/-- The wording of an error (`main`). -/
def SetupError.message : SetupError → String
  | configuration reason => reason.message
  | server reason => reason.message
  | root path => "Invalid root: " ++ path

/-- Sets the bridge up (`main`). -/
def setUp (here : Surroundings) (options : Options) : Except SetupError Setup := do
  let configuration ←
    (Configuration.load here.read here.userFile options.config here.env).mapError
      SetupError.configuration
  let added ← (options.servers.mapM Client.ofSpec).mapError SetupError.server
  let path := options.root.getD here.workingDirectory
  let root ← ((here.directory? path).map Except.ok).getD (.error (SetupError.root path))
  let routes ←
    (Routes.ofClients here.env (configuration.clients ++ added)).mapError SetupError.configuration
  return ⟨options.timeout.getD configuration.timeout, routes, root⟩

end EditorBridge.Console
