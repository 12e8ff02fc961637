import EditorBridge.CommandLine

/-!
# Options of the bridge

What the bridge is told on its command line: servers in addition to the configured ones, a file with
the configuration, the root of the files, and how long an answer is waited for.
-/

namespace EditorBridge.Console

/-- What the bridge is told on its command line (`Args`): servers, each as extensions and a command,
the file with the configuration, the root of the files, and how long an answer is waited for, in
milliseconds. -/
structure Options where
  servers : List String
  config : Option String
  root : Option String
  timeout : Option Nat
  deriving DecidableEq, Repr

namespace Options

/-- The options on the command line (`Args`). -/
def grammar : CommandLine.Grammar :=
  let path (name : String) (letter : Option Char) : CommandLine.Switch :=
    ⟨name, letter, .single, fun value => !value.isEmpty⟩
  ⟨[⟨"lsp", some 'l', .many, fun _ => true⟩, path "config" none, path "root" (some 'r'),
    ⟨"timeout-ms", none, .single, CommandLine.isNumber⟩], true⟩

/-- The options that were given. -/
def ofGiven (given : CommandLine.Given) : Options where
  servers := given.all "lsp"
  config := given.value? "config"
  root := given.value? "root"
  timeout := given.number? "timeout-ms"

/-- The options that arguments give. -/
def parse (args : List String) : Except CommandLine.Stop Options :=
  (CommandLine.parse grammar args).map ofGiven

end Options

/-- What the bridge says about its version. -/
def versionLine : String := "tether 0.4.0"

end EditorBridge.Console
