import EditorBridge.Console.Setup
import EditorBridge.Practice.Stream
import EditorBridge.Rehearsal.Console

/-!
# The program

The outer layer of the bridge: it reads lines and bytes, writes lines and frames, and asks the
system for files, variables and the time. Under the name of the practice server the program is that
server; under any other name it is the bridge, and every server that it starts is a practice server
in the same process.
-/

namespace EditorBridge.Main

/-! ### The practice server -/

/-- Writes a message to standard output (`write_framed`). -/
def writeFrame (options : Practice.Options) (message : Json) : IO Unit := do
  let output ← IO.getStdout
  output.putStr (String.ofList (Practice.Running.frame options message))
  output.flush

/-- Does what the practice server does; late answers are left to tasks of their own. -/
def perform (options : Practice.Options) : Practice.Act → IO Unit
  | .write message => writeFrame options message
  | .later delay message => do
      let _ ← IO.asTask do
        IO.sleep (UInt32.ofNat delay)
        writeFrame options message
  | .exit _ => pure ()

/-- Reads standard input to its end, or until the practice server exits. -/
partial def serve (options : Practice.Options) (server : Practice.Running) : IO UInt32 := do
  let piece ← (← IO.getStdin).read 4096
  if piece.isEmpty then return 0
  let (server, acts) := server.receive piece.toList
  acts.forM (perform options)
  match server.exitCode with
  | some code => return UInt32.ofNat code
  | none => serve options server

/-- Runs the practice server (`main`). -/
def runPractice (args : List String) : IO UInt32 :=
  match Practice.Options.parse args with
  | .ok options => serve options (.start options)
  | .error stop => return UInt32.ofNat stop.exitCode

/-! ### The bridge -/

/-- The variables that the bridge looks at. -/
def variableNames : List String :=
  [SearchPath.variableName, "HOME", "XDG_CONFIG_HOME", "TETHER_REQUEST_TIMEOUT_MS"]

/-- The values of these variables, where they have one. -/
def readEnvironment : IO Environment :=
  variableNames.filterMapM fun name => do
    return (← IO.getEnv name).map fun value => (name, value)

/-- The path of the user's configuration file. -/
def userFile (env : Environment) : String :=
  let directory := (env.get? "XDG_CONFIG_HOME").getD ((env.get? "HOME").getD "" ++ "/.config")
  directory ++ "/tether/config.toml"

/-- The text of a file, if there is one. -/
def readFile? (path : String) : IO (Option String) := do
  try return some (← IO.FS.readFile path) catch _ => return none

/-- The texts of those of some files that are there. -/
def readFiles (paths : List String) : IO (List (String × String)) :=
  paths.filterMapM fun path => do
    return (← readFile? path).map fun text => (path, text)

/-- The path of a directory from the root directory, if there is such a directory. -/
def directory? (path : String) : IO (Option String) := do
  try
    let real ← IO.FS.realPath path
    return if ← real.isDir then some real.toString else none
  catch _ => return none

/-- Looks around for what the options of the bridge need. -/
def lookAround (options : Console.Options) : IO Console.Surroundings := do
  let env ← readEnvironment
  let named := options.config.toList.flatMap fun path =>
    path :: Configuration.Format.all.map fun format => path ++ "." ++ format.fileExt
  let files ← readFiles (userFile env :: named)
  let root ← directory? (options.root.getD ".")
  return {
    read := fun path => files.lookup path
    userFile := userFile env
    env
    directory? := fun _ => root
    workingDirectory := "." }

/-- Writes the lines of the console that have not been written yet. -/
def flush (p : Performance) : IO Performance := do
  let (p, lines) := p.read p.waiting.length
  let output ← IO.getStdout
  lines.forM output.putStrLn
  output.flush
  return p

/-- Reads lines to the end of the input, or until the bridge dies. The clock of the console started
at a time. -/
partial def converse (began : Nat) (p : Performance) : IO UInt32 := do
  let line ← (← IO.getStdin).getLine
  let p := p.advance ((← IO.monoMsNow) - began)
  if line.isEmpty then
    let (p, lines) := p.finish
    let output ← IO.getStdout
    lines.forM output.putStrLn
    return UInt32.ofNat p.exitCode
  let p ← flush (p.take line)
  if p.hasDied then return UInt32.ofNat p.exitCode
  converse began p

/-- Runs the bridge (`main`). -/
def runBridge (args : List String) : IO UInt32 := do
  match Console.Options.parse args with
  | .error stop =>
      if stop = .version then IO.println Console.versionLine
      return UInt32.ofNat stop.exitCode
  | .ok options =>
      let here ← lookAround options
      match Console.setUp here options with
      | .error e =>
          IO.eprintln e.message
          return UInt32.ofNat e.exitCode
      | .ok setup =>
          let isPlayable (l : Launch) : Bool :=
            Text.fileName? l.spec.binary.toList == some Practice.Server.name.toList
          let hub := Console.hub 0 setup.timeout setup.routes
          converse (← IO.monoMsNow) (.start (.start hub isPlayable) setup.root)

end EditorBridge.Main

/-- The program. -/
def main (args : List String) : IO UInt32 := do
  let name := (← IO.appPath).fileName
  if name = some EditorBridge.Practice.Server.name then EditorBridge.Main.runPractice args
  else EditorBridge.Main.runBridge args
