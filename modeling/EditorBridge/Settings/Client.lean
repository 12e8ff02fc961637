import EditorBridge.Settings.Basic
import EditorBridge.Settings.Environment
import EditorBridge.Text.Blank

/-!
# Clients

A client of a language server: which program it runs, with what arguments and in what environment,
and for which files. It is written in a configuration file as a table, or on the command line as
`ext[,ext]:command [args...]`.
-/

namespace EditorBridge

/-- How a language server is run and what for (`ClientConfig`): the name and the arguments of the
program, the extensions of the files that are sent to it, the variables of its environment that are
set on top of the others, the directories that are put in front of its search path, and the language
of the files, if it is known. -/
structure Client where
  binary : String
  args : List String
  fileExts : List String
  env : Environment
  pathAdditions : List String
  languageId : Option String
  deriving DecidableEq, Repr

namespace Client

/-! ### Clients on the command line -/

/-- Why a text describes no client (`ClientConfig::parse_cli`): there is no colon after the
extensions, no extension is given, or no command. -/
inductive SpecError where
  | noColon (spec : String)
  | noExtensions (spec : String)
  | noCommand
  deriving DecidableEq, Repr

/-- The wording of an error (`ClientConfig::parse_cli`). -/
def SpecError.message : SpecError → String
  | noColon spec => "Invalid LSP spec: " ++ spec ++ ". Expected 'ext[,ext]:command'"
  | noExtensions spec => "Invalid LSP spec: " ++ spec ++ ". No file extensions given"
  | noCommand => "command cannot be empty"

/-- A text without the points at its start (`ClientConfig::parse_cli`). -/
def withoutPoints (s : List Char) : List Char :=
  s.dropWhile (· == '.')

/-- The extensions that a list with commas gives (`ClientConfig::parse_cli`). -/
def extensions (s : List Char) : List String :=
  (((Text.split (· == ',') s).map fun part => withoutPoints (Text.trim part)).filter
    fun part => !part.isEmpty).map String.ofList

/-- The client that a text describes (`ClientConfig::parse_cli`). -/
def ofSpec (spec : String) : Except SpecError Client :=
  match spec.toList.dropWhile (· != ':') with
  | _ :: command =>
      match extensions (spec.toList.takeWhile (· != ':')), Text.words command with
      | [], _ => .error (.noExtensions spec)
      | _, [] => .error .noCommand
      | exts, binary :: args =>
          .ok ⟨String.ofList binary, args.map String.ofList, exts, [], [], none⟩
  | [] => .error (.noColon spec)

/-! ### Clients in configuration files -/

/-- The members of a client (`ClientConfig`). -/
def names : List String :=
  ["binary", "args", "file_exts", "env", "path_additions", "language_id"]

/-- The members of a client, by name from a table or by position from a list (`ClientConfig`). -/
def members? : Setting → Option (List (Option Setting))
  | .table members => some (names.map (Setting.lookup · members))
  | .list items => some ((List.range names.length).map (items[·]?))
  | _ => none

/-- A member that has a value of its own when it is missing. -/
def orElse {α : Type} (missing : α) (read : Setting → Option α) : Option Setting → Option α
  | none => some missing
  | some v => read v

/-- Reads a client (`ClientConfig`). -/
def ofSetting? (v : Setting) : Option Client :=
  match members? v with
  | some [binary, args, fileExts, env, pathAdditions, languageId] =>
      (binary.bind Setting.text?).bind fun binary =>
        (orElse [] Setting.texts? args).bind fun args =>
          (orElse [] Setting.texts? fileExts).bind fun fileExts =>
            (orElse [] Setting.textTable? env).bind fun env =>
              (orElse [] Setting.texts? pathAdditions).bind fun pathAdditions =>
                (orElse none Setting.optionalText? languageId).map fun languageId =>
                  ⟨binary, args, fileExts, env, pathAdditions, languageId⟩
  | _ => none

/-! ### Environments of clients -/

/-- The environment that the program of a client gets, in a process with an environment of its own
(`ClientConfig::environment`). It is empty if the client changes nothing, which means that the
program gets the one of the process. There is none if an addition to the search path cannot be in
one. -/
def environment? (c : Client) (processEnv : Environment) : Option Environment :=
  if c.env.isEmpty && c.pathAdditions.isEmpty then some []
  else
    let base :=
      if c.pathAdditions.isEmpty then some processEnv
      else
        let existing := SearchPath.split ((processEnv.get? SearchPath.variableName).getD "")
        (SearchPath.join? (c.pathAdditions ++ existing)).map fun path =>
          processEnv.set SearchPath.variableName path
    base.map (·.extend c.env)

end Client

end EditorBridge
