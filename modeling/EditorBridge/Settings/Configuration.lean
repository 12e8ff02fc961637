import EditorBridge.Json.Reader
import EditorBridge.Settings.Client
import EditorBridge.Settings.Path
import EditorBridge.Text.Components
import EditorBridge.Toml.Document

/-!
# The configuration

What the bridge is told before it starts: how long a query may wait, and which clients there are.
It is put together from defaults, the file of the user, a file that is named on the command line,
and the environment, each of which goes on top of those before it.
-/

namespace EditorBridge

/-- The configuration of the bridge (`Config`): how long a query waits for its answer, in
milliseconds, and the clients in the order of their registration. -/
structure Configuration where
  timeout : Nat
  clients : List Client
  deriving DecidableEq, Repr

/-- Why there is no configuration (`Config::load`): a file is not there, of unknown kind or not
well-formed, or the settings are not those of a configuration, or the search path of a client cannot
be built. -/
inductive ConfigurationError where
  | unreadable
  | unfit
  | invalidClient (binary : String)
  deriving DecidableEq, Repr

/-- The wording of an error (`Config::load`). -/
def ConfigurationError.message : ConfigurationError → String
  | unreadable => "Failed to build configuration"
  | unfit => "Failed to deserialize configuration"
  | invalidClient binary => "Invalid configuration for " ++ binary

namespace Configuration

/-- How long a query waits if nobody says otherwise (`default_request_timeout_ms`). -/
def defaultTimeout : Nat := 2000

/-! ### Files -/

mutual

/-- The setting that a JSON value gives. Integers beyond 64 bits with a sign become amounts. -/
def settingOfJson : Json → Setting
  | .null => .null
  | .bool b => .bool b
  | .int n =>
      if n ≤ Int64.maxValue.toInt then .int n
      else ((Binary64.ofNat n.toNat).map fun x => Setting.amount (.finite x)).getD .null
  | .float x => .amount (.finite x)
  | .string s => .text s
  | .array items => .list (settingsOfItems items)
  | .object members => .table (settingsOfMembers members)

/-- The settings that the items of an array give. -/
def settingsOfItems : List Json → List Setting
  | [] => []
  | item :: rest => settingOfJson item :: settingsOfItems rest

/-- The settings that the members of an object give. -/
def settingsOfMembers : List (String × Json) → List (String × Setting)
  | [] => []
  | (name, value) :: rest => (name, settingOfJson value) :: settingsOfMembers rest

end

/-- The formats of configuration files, with the extensions that tell them. -/
inductive Format where
  | toml
  | json
  deriving DecidableEq, Repr

namespace Format

/-- Every format. -/
def all : List Format := [toml, json]

/-- The extension of the files of a format. -/
def fileExt : Format → String
  | toml => "toml"
  | json => "json"

/-- The settings that a text of a format gives, which have to be a table. -/
def parse? (format : Format) (text : List Char) : Option Setting :=
  match format with
  | toml => Toml.parse? text
  | json =>
      match Json.ofChars? text with
      | some (.object members) => some (.table (settingsOfMembers members))
      | _ => none

end Format

/-- The format of the file with a path, and its text (`Config::load`). A path that names no file
stands for the first file whose path is longer by the extension of a format. -/
def findFile? (read : String → Option String) (path : String) : Option (Format × String) :=
  match read path with
  | some text =>
      (Format.all.find? fun format =>
        Text.extension? path.toList = some format.fileExt.toList).map (·, text)
  | none =>
      Format.all.findSome? fun format =>
        (read (path ++ "." ++ format.fileExt)).map (format, ·)

/-- The settings in the file with a path (`Config::load`). -/
def readFile? (read : String → Option String) (path : String) : Option Setting :=
  (findFile? read path).bind fun (format, text) => format.parse? (Toml.skipMark text.toList)

/-! ### The environment -/

/-- What the names of the variables that count start with (`Config::load`). -/
def variablePrefix : List Char := "tether_".toList

/-- The settings that the environment gives, by name (`Config::load`). -/
def ofEnvironment (env : Environment) : List (String × Setting) :=
  env.filterMap fun (name, value) =>
    let name := name.toList.map Char.toLower
    if variablePrefix.isPrefixOf name then
      some (String.ofList (name.drop variablePrefix.length), .text value)
    else none

/-! ### Putting it together -/

/-- The settings with others on top. -/
def overlay (settings : Setting) (others : List (String × Setting)) : Setting :=
  others.foldl (fun settings member => settings.assign member.1 member.2) settings

/-- The clients that a setting lists (`Config`). -/
def clients? : Setting → Option (List Client)
  | .list items => items.mapM Client.ofSetting?
  | _ => none

/-- The configuration that settings describe (`Config`). -/
def ofSetting? (v : Setting) : Option Configuration :=
  let member (name : String) : Option Setting := Setting.lookup name v.members
  (Client.orElse defaultTimeout Setting.natural? (member "request_timeout_ms")).bind fun timeout =>
    (Client.orElse [] clients? (member "clients")).map fun clients => ⟨timeout, clients⟩

/-- Loads the configuration from the files with two paths and the environment (`Config::load`). The
file of the user may be missing. -/
def load (read : String → Option String) (userFile : String) (explicitFile : Option String)
    (env : Environment) : Except ConfigurationError Configuration :=
  let defaults : Setting := .table [("request_timeout_ms", .int defaultTimeout)]
  let userFiles := if (read userFile).isSome then [userFile] else []
  match (userFiles ++ explicitFile.toList).mapM (readFile? read) with
  | none => .error .unreadable
  | some files =>
      let settings := overlay (files.foldl (fun s file => overlay s file.members) defaults)
        (ofEnvironment env)
      match ofSetting? settings with
      | some configuration => .ok configuration
      | none => .error .unfit

end Configuration

end EditorBridge
