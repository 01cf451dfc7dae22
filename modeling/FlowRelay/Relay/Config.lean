import FlowRelay.Fault
import FlowRelay.Net.Proxy

/-!
# FlowRelay.Relay.Config

The settings of a relay, and what surrounds it while it handles an event.  The relay reads no clock,
draws no random number and opens no socket itself: the time, an initial sequence number and the
outcome of every call to the outside come with the event.
-/

namespace FlowRelay

/-! ## Time -/

/-- A point in time, in microseconds from some fixed one. -/
abbrev Instant := Int

/-- Whether more than so many milliseconds have passed. -/
def Instant.elapsedMore (since now : Instant) (milliseconds : Nat) : Bool :=
  decide (now - since > 1000 * (milliseconds : Int))

/-- No time has passed since now. -/
@[simp] theorem Instant.elapsedMore_self (now : Instant) (milliseconds : Nat) :
    now.elapsedMore now milliseconds = false := by
  have hnot : ¬ ((0 : Int) > 1000 * (milliseconds : Int)) := by omega
  rw [elapsedMore, Int.sub_self]
  exact decide_eq_false hnot

/-! ## Settings -/

/-- The settings of a relay.  Times are in milliseconds. -/
structure Config where
  /-- How many entries each connection table holds. -/
  capacity : Nat
  /-- How long a TCP connection has to be idle before it may be evicted early. -/
  tcpIdle : Nat
  /-- How long a UDP connection has to be idle before it may be evicted early. -/
  udpIdle : Nat
  /-- How long nothing may have been read before an end of stream closes a connection silently. -/
  eofIdle : Nat
  /-- How long writing a segment to an outbound socket may take. -/
  writeTimeout : Nat
  /-- The largest packet of the device, and the size of the packet buffers. -/
  mtu : Nat
  /-- The destination ports of the TCP flows whose HTTP bodies are reassembled. -/
  inspectPorts : List UInt16
  deriving DecidableEq, Repr

/-- The settings if nothing is chosen. -/
def Config.default : Config :=
  { capacity := 500, tcpIdle := 120000, udpIdle := 60000, eofIdle := 30000
    writeTimeout := 10000, mtu := 1500, inspectPorts := [] }

/-! ## Surroundings -/

/-- What surrounds a relay while it handles one event. -/
structure Surroundings where
  now : Instant
  proxy : Net.Proxy
  /-- Whether an outbound socket can be had and protected. -/
  socket : Except Fault Unit
  /-- Whether somebody takes packets for the device. -/
  deviceOpen : Bool
  /-- Whether somebody drives connects and reads. -/
  multiplexerOpen : Bool

/-- A packet on its way to the device, with the connection that sent it, if it has one. -/
structure Outgoing where
  connection : Option Nat
  buffer : List UInt8
  deriving DecidableEq, Repr

/-- Data that the outbound socket of a connection has taken. -/
structure Handed where
  connection : Nat
  payload : List UInt8
  deriving DecidableEq, Repr

end FlowRelay
