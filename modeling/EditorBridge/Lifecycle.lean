/-!
# The life of a channel

A channel to a server is initializing until the server has accepted the handshake, then ready, and
dead for good once the server is gone. The stage is kept as a byte; every byte other than the two
of a living channel stands for a dead one.
-/

namespace EditorBridge

/-- The stages of a channel's life, in their order (`ServerState`). -/
inductive Lifecycle where
  | initializing
  | ready
  | dead
  deriving DecidableEq, Repr

namespace Lifecycle

/-- The stage that a byte stands for (`ServerState::from_u8`). -/
def ofByte : UInt8 → Lifecycle
  | 0 => initializing
  | 1 => ready
  | _ => dead

/-- The byte of a stage (`ServerState::as_u8`). -/
def toByte : Lifecycle → UInt8
  | initializing => 0
  | ready => 1
  | dead => 2

/-- The name of a stage (`ServerState::fmt`). -/
def name : Lifecycle → String
  | initializing => "initializing"
  | ready => "ready"
  | dead => "dead"

theorem ofByte_toByte (s : Lifecycle) : ofByte s.toByte = s := by
  cases s <;> rfl

end Lifecycle

end EditorBridge
