import FlowRelay.Flow.Store
import FlowRelay.Http.Inspector
import FlowRelay.Tcp.Segment

/-!
# FlowRelay.Tcp.Connection

A TCP connection of the device, whose far end is played by the relay.
-/

namespace FlowRelay.Tcp

/-- How far a connection has come. -/
inductive Status where
  /-- The outbound socket is connecting. -/
  | synSent
  /-- The device has been sent a SYN with an ACK. -/
  | synReceived
  /-- The handshake with the device is complete. -/
  | established
  /-- The device has closed its side, the network has not. -/
  | closeWait
  /-- The device has been sent a FIN, whose acknowledgement is awaited. -/
  | lastAck
  deriving DecidableEq, Repr

namespace Status

/-- The name of a status. -/
def text : Status → String
  | .synSent => "SYN_SENT"
  | .synReceived => "SYN_RECEIVED"
  | .established => "ESTABLISHED"
  | .closeWait => "CLOSE_WAIT"
  | .lastAck => "LAST_ACK"

/-- All statuses, in the order in which a connection may pass through them. -/
def all : List Status := [.synSent, .synReceived, .established, .closeWait, .lastAck]

/-- The status with the given name. -/
def ofText? (s : String) : Option Status := all.find? (·.text = s)

/-- Whether one side of the connection is closed. -/
def isClosing : Status → Bool
  | .closeWait | .lastAck => true
  | .synSent | .synReceived | .established => false

end Status

/-- The segments on their way from a connection to its outbound socket. -/
inductive WriterQueue where
  /-- There is no outbound socket yet. -/
  | absent
  /-- The connection may queue segments. -/
  | attached (segments : List Segment)
  /-- The connection has let go of the queue; these segments were left in it. -/
  | released (segments : List Segment)
  deriving DecidableEq, Repr

namespace WriterQueue

/-- Whether the connection may queue segments. -/
def isAttached : WriterQueue → Bool
  | .attached _ => true
  | .absent | .released _ => false

/-- The segments in the queue, the next one to be written first. -/
def segments : WriterQueue → List Segment
  | .absent => []
  | .attached segments | .released segments => segments

/-- Let go of the queue. -/
def release : WriterQueue → WriterQueue
  | .absent => .absent
  | .attached segments | .released segments => .released segments

/-- Take the segment out that has been written. -/
def dropFirst : WriterQueue → WriterQueue
  | .absent => .absent
  | .attached segments => .attached (segments.drop 1)
  | .released segments => .released (segments.drop 1)

end WriterQueue

/-- A connection. -/
structure Connection where
  key : Flow.Key
  /-- Headers from the destination to the device, by which everything sent to it is addressed. -/
  template : Packet.Headers
  status : Status
  /-- The next sequence number to be sent to the device. -/
  sequence : UInt32
  /-- The next sequence number expected from the device. -/
  acknowledgement : UInt32
  /-- The acknowledgement that came last from the device. -/
  theirAcknowledgement : UInt32
  writer : WriterQueue
  /-- How many bytes of the next segment in the queue the outbound socket has taken already. -/
  taken : Nat
  lastActive : Instant
  /-- When something was read from the outbound socket for the last time. -/
  lastRead : Instant
  bytesRead : Nat
  bytesWritten : Nat
  inspector : Option Http.Inspector
  closed : Bool
  /-- Whether somebody is at work on the connection. -/
  busy : Bool
  deriving DecidableEq, Repr

namespace Connection

/-- The connection that a SYN opens. -/
def make (key : Flow.Key) (template : Packet.Headers) (initial theirSequence : UInt32)
    (inspector : Option Http.Inspector) (now : Instant) : Connection :=
  { key, template, status := .synSent, sequence := initial, acknowledgement := theirSequence + 1
    theirAcknowledgement := 0, writer := .absent, taken := 0, lastActive := now, lastRead := now
    bytesRead := 0, bytesWritten := 0, inspector, closed := false, busy := false }

/-- Something happened on the connection. -/
def touch (c : Connection) (now : Instant) : Connection := { c with lastActive := now }

/-- Close the connection.  Its queue is let go unless somebody is at work on it. -/
def close (c : Connection) : Connection :=
  { c with closed := true, writer := if c.busy then c.writer else c.writer.release }

/-- Whether the connection may be evicted before the least recently used one: it is closing, or it
has been idle for longer than so many milliseconds.  One that somebody is at work on never is. -/
def mayGoEarly (c : Connection) (now : Instant) (idle : Nat) : Bool :=
  !c.busy && (c.status.isClosing || c.lastActive.elapsedMore now idle)

instance : Flow.Tracked Connection := ⟨key, closed, close, mayGoEarly⟩

end Connection

end FlowRelay.Tcp
