import EditorBridge.CommandLine

/-!
# Options of the practice server

How the practice server is told to misbehave: which methods it leaves without an answer, answers
late, answers with nothing or with a failure, how many blank lines it writes before a message, and
after how many answers it dies.
-/

namespace EditorBridge.Practice

/-- How the practice server behaves (`Args`): which methods are never answered, answered late, with
a null result or with a failure, how late an answer is, in milliseconds, the number of blank lines
before every message, whether findings are kept back, the number of answers after which the server
dies, and whether it asks for its configuration after the handshake. -/
structure Options where
  hangOn : List String
  slowOn : List String
  slowDelay : Nat
  nullResultOn : List String
  failOn : List String
  blankLines : Nat
  noDiagnostics : Bool
  dropAfter : Option Nat
  sendConfigurationRequest : Bool
  deriving Repr

namespace Options

/-- The options on the command line (`Args`). -/
def grammar : CommandLine.Grammar :=
  let methods (name : String) : CommandLine.Switch := ⟨name, none, .many, fun _ => true⟩
  let number (name : String) : CommandLine.Switch := ⟨name, none, .single, CommandLine.isNumber⟩
  let flag (name : String) : CommandLine.Switch := ⟨name, none, .flag, fun _ => true⟩
  ⟨[methods "hang-on", methods "slow-on", number "slow-delay", methods "null-result-on",
    methods "fail-on", number "blank-lines", flag "no-diagnostics", number "drop-after",
    flag "send-configuration-request"], false⟩

/-- The options that were given. -/
def ofGiven (given : CommandLine.Given) : Options where
  hangOn := given.all "hang-on"
  slowOn := given.all "slow-on"
  slowDelay := (given.number? "slow-delay").getD 300
  nullResultOn := given.all "null-result-on"
  failOn := given.all "fail-on"
  blankLines := (given.number? "blank-lines").getD 0
  noDiagnostics := given.has "no-diagnostics"
  dropAfter := given.number? "drop-after"
  sendConfigurationRequest := given.has "send-configuration-request"

/-- The options that arguments give. -/
def parse (args : List String) : Except CommandLine.Stop Options :=
  (CommandLine.parse grammar args).map ofGiven

end Options

end EditorBridge.Practice
