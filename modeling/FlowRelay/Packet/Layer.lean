import FlowRelay.Packet.Headers

/-!
# FlowRelay.Packet.Layer

A single header on its own, read from and written to bytes without the other layer.  A transport
header needs the two addresses of its pseudo header.
-/

namespace FlowRelay.Packet

/-- A header by itself. -/
inductive Layer where
  | network (h : Ipv4)
  | transport (h : Transport) (source destination : Net.Address)
  deriving DecidableEq, Repr

namespace Layer

/-- Read an IPv4 header. -/
def network? (bytes : List UInt8) : Option Layer :=
  if bytes.length < Ipv4.headerLength then none else some (.network (Ipv4.ofBytes bytes))

/-- Read a TCP header between two addresses. -/
def tcp? (bytes : List UInt8) (source destination : Net.Address) : Option Layer :=
  if bytes.length < Tcp.headerLength then none
  else some (.transport (.tcp (Tcp.ofBytes bytes)) source destination)

/-- Read a UDP header between two addresses. -/
def udp? (bytes : List UInt8) (source destination : Net.Address) : Option Layer :=
  if bytes.length < Udp.headerLength then none
  else some (.transport (.udp (Udp.ofBytes bytes)) source destination)

/-- The layer of an answer: ports and addresses exchanged. -/
def swap : Layer → Layer
  | .network h => .network h.swap
  | .transport h source destination => .transport h.swap destination source

/-- Set the flags and the numbers of a TCP header; other layers have none. -/
def control? (flags : UInt8) (sequence acknowledgement : UInt32) : Layer → Option Layer
  | .transport (.tcp h) source destination =>
    some (.transport (.tcp (h.control flags sequence acknowledgement)) source destination)
  | .transport (.udp _) _ _ => none
  | .network _ => none

/-- The text of the header. -/
def text : Layer → String
  | .network h => h.text
  | .transport (.tcp h) _ _ => h.text
  | .transport (.udp h) _ _ => h.text

/-- The length of the header as it is written. -/
def headerLength : Layer → Nat
  | .network _ => Ipv4.headerLength
  | .transport h _ _ => h.headerLength

/-- Write the header in front of the payload staged behind it, for `n` bytes with the payload. -/
def write (layer : Layer) (buffer : List UInt8) (n : Nat) : Written :=
  match layer with
  | .network h => h.write buffer n
  | .transport h source destination => h.write source destination buffer n

/-- Write the header with a payload behind it, for `n` bytes with the payload. -/
def writeWith (layer : Layer) (buffer payload : List UInt8) (n : Nat) : Written :=
  writeWithPayload layer.headerLength layer.write buffer payload n

end Layer

end FlowRelay.Packet
