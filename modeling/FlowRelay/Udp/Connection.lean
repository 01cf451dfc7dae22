import FlowRelay.Flow.Store
import FlowRelay.Packet.Headers

/-!
# FlowRelay.Udp.Connection

A UDP connection: the outbound socket that the datagrams of one flow go through.
-/

namespace FlowRelay.Udp

/-- A connection. -/
structure Connection where
  key : Flow.Key
  /-- Where the outbound socket is connected to. -/
  target : Net.Endpoint
  /-- Headers from the destination to the device, by which everything sent to it is addressed. -/
  template : Packet.Headers
  lastActive : Instant
  bytesRead : Nat
  bytesWritten : Nat
  closed : Bool
  /-- Whether somebody is at work on the connection. -/
  busy : Bool
  deriving DecidableEq, Repr

namespace Connection

/-- The connection that a datagram opens. -/
def make (key : Flow.Key) (target : Net.Endpoint) (template : Packet.Headers) (now : Instant) :
    Connection :=
  { key, target, template, lastActive := now, bytesRead := 0, bytesWritten := 0, closed := false
    busy := false }

/-- Close the connection. -/
def close (c : Connection) : Connection := { c with closed := true }

/-- Whether the connection may be evicted before the least recently used one: it has been idle for
longer than so many milliseconds.  One that somebody is at work on never is. -/
def mayGoEarly (c : Connection) (now : Instant) (idle : Nat) : Bool :=
  !c.busy && c.lastActive.elapsedMore now idle

instance : Flow.Tracked Connection := ⟨key, closed, close, mayGoEarly⟩

end Connection

end FlowRelay.Udp
