import FlowRelay.Net.Address

/-!
# FlowRelay.Net.Proxy

Where a flow is connected to: flows to one port go to a proxy while one is set and available, all
others to their own destination.  Sockets may have to be protected from being captured themselves.
-/

namespace FlowRelay.Net

/-- A forwarding proxy for the flows to one port. -/
structure Proxy where
  port : UInt16
  target : Option Endpoint
  available : Bool
  deriving DecidableEq, Repr, Inhabited

namespace Proxy

/-- The port that is forwarded if none is chosen. -/
def defaultPort : UInt16 := 80

/-- No proxy is set. -/
def unset (port : UInt16) : Proxy := ⟨port, none, false⟩

/-- A proxy that is set and available. -/
def forward (port : UInt16) (target : Endpoint) : Proxy := ⟨port, some target, true⟩

/-- The endpoint that a flow to the destination is connected to. -/
def resolve (p : Proxy) (destination : Endpoint) : Endpoint :=
  if destination.port = p.port ∧ p.available then p.target.getD destination else destination

end Proxy

/-- How outbound sockets are kept out of the capture. -/
inductive Protection where
  | none
  /-- Sockets carry a mark, by which a routing rule tells them from captured traffic. -/
  | mark (value : UInt32)
  deriving DecidableEq, Repr

/-- The error number of a descriptor that is not open. -/
def badDescriptor : Nat := 9

/-- The error number of protecting a descriptor that is not open.  Without a mark the descriptor is
not even looked at. -/
def Protection.closedDescriptorError? : Protection → Option Nat
  | .none => Option.none
  | .mark _ => some badDescriptor

end FlowRelay.Net
