import FlowRelay.Net.Address

/-!
# FlowRelay.Flow.Key

What identifies a flow: the endpoint that the device talks to and the port that it talks from.  The
address of the device is not part of it.
-/

namespace FlowRelay.Flow

/-- The key of a flow. -/
structure Key where
  destination : Net.Endpoint
  sourcePort : UInt16
  deriving DecidableEq, Repr, Inhabited

/-- The text of a key. -/
def Key.text (k : Key) : String := s!"{k.destination.text}:{k.sourcePort.toNat}"

end FlowRelay.Flow
