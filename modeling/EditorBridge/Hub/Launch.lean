import EditorBridge.Settings.Routes

/-!
# Launches

The start of a server for a channel, and what is said when there is no such program or no such
directory.
-/

namespace EditorBridge

/-- The start of a server (`ProcessSpec`): the channel that will lead to it, how it is started, and
the directory that it is started in. -/
structure Launch where
  channel : Nat
  spec : ServerSpec
  root : String
  deriving Repr

/-- Why a server was not started (`TransportError`): there is no such program, or no such directory.
-/
inductive LaunchError where
  | notFound (program : String)
  deriving DecidableEq, Repr

/-- The wording of an error (`TransportError`). -/
def LaunchError.message : LaunchError → String
  | notFound program =>
      "failed to start " ++ program ++ ": No such file or directory (os error 2)"

end EditorBridge
