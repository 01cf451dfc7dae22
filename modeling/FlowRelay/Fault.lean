import FlowRelay.Packet.Datagram

/-!
# FlowRelay.Fault

What can go wrong while packets are relayed.  Each fault has a kind, by which callers tell them
apart, and a wording.  Faults of devices, sockets and hooks come from outside and bring both along.
-/

namespace FlowRelay

/-- The kinds of faults. -/
inductive FaultKind where
  | invalidData
  | invalidInput
  | writeZero
  | brokenPipe
  | notConnected
  | permissionDenied
  | interrupted
  | wouldBlock
  | unexpectedEof
  | timedOut
  | other
  deriving DecidableEq, Repr

/-- The wording of a fault of which only the kind is known. -/
def FaultKind.text : FaultKind → String
  | .invalidData => "invalid data"
  | .invalidInput => "invalid input parameter"
  | .writeZero => "write zero"
  | .brokenPipe => "broken pipe"
  | .notConnected => "not connected"
  | .permissionDenied => "permission denied"
  | .interrupted => "operation interrupted"
  | .wouldBlock => "operation would block"
  | .unexpectedEof => "unexpected end of file"
  | .timedOut => "timed out"
  | .other => "other error"

/-- What went wrong. -/
inductive Fault where
  /-- A packet for the device could not be written. -/
  | packet (e : Packet.WriteError)
  /-- Bytes are not a packet. -/
  | malformed (e : Packet.Malformed)
  /-- Nobody takes packets for the device any more. -/
  | deviceStopped
  /-- Nobody drives connects and reads any more. -/
  | multiplexerStopped
  /-- Nobody takes segments of the connection any more. -/
  | writerStopped
  /-- The connection has no outbound socket yet, or none any more. -/
  | notConnected
  /-- A segment could not be written to the outbound socket in time. -/
  | writeTimedOut
  /-- A device, a socket or a hook failed. -/
  | outside (kind : FaultKind) (message : String)
  deriving DecidableEq, Repr

namespace Fault

/-- The kind of a packet that could not be written. -/
def writeKind : Packet.WriteError → FaultKind
  | .bufferTooSmall => .writeZero
  | .lengthTooBig | .notTcp | .notUdp => .invalidInput

/-- The kind of a fault. -/
def kind : Fault → FaultKind
  | .packet e => writeKind e
  | .malformed _ => .invalidData
  | .deviceStopped | .multiplexerStopped | .writerStopped => .brokenPipe
  | .notConnected => .notConnected
  | .writeTimedOut => .timedOut
  | .outside kind _ => kind

/-- The wording of a fault. -/
def message : Fault → String
  | .packet e => e.message
  | .malformed e => e.message
  | .deviceStopped => "device writer stopped"
  | .multiplexerStopped => "multiplexer stopped"
  | .writerStopped => "writer stopped"
  | .notConnected => "not connected"
  | .writeTimedOut => "write timed out"
  | .outside _ message => message

/-- A fault from outside of which only the kind is known. -/
def ofKind (kind : FaultKind) : Fault := .outside kind kind.text

/-- The fault of a packet that cannot be made. -/
def ofMakeError : Packet.MakeError → Fault
  | .write e => .packet e
  | .malformed e => .malformed e

end Fault

end FlowRelay
