import FlowRelay.Packet.Headers

/-!
# FlowRelay.Packet.Datagram

A packet over the buffer that it was read into: its headers and where its payload lies.
-/

namespace FlowRelay.Packet

/-- An IPv4 packet of TCP or UDP in its buffer. -/
structure Datagram where
  buffer : List UInt8
  headers : Headers
  span : Span
  deriving DecidableEq, Repr

/-- Why a datagram cannot be made from its parts. -/
inductive MakeError where
  | write (e : WriteError)
  | malformed (e : Malformed)
  deriving DecidableEq, Repr

namespace Datagram

/-! ## Reading -/

/-- Read the packet in a buffer. -/
def parse (buffer : List UInt8) : Except Malformed Datagram :=
  (Headers.parse buffer).map fun (headers, span) => { buffer, headers, span }

/-- The number of bytes of the packet. -/
def length (d : Datagram) : Nat := d.headers.network.totalLength.toNat

/-- The bytes of the packet, without what follows them in the buffer. -/
def bytes (d : Datagram) : List UInt8 := d.buffer.take d.length

/-- The payload of the transport protocol. -/
def payload (d : Datagram) : List UInt8 := Bytes.slice d.buffer d.span.start d.span.stop

/-- Whether the packet carries no payload. -/
def isEmpty (d : Datagram) : Bool := d.span.stop ≤ d.span.start

def source (d : Datagram) : Net.Endpoint := d.headers.source

def destination (d : Datagram) : Net.Endpoint := d.headers.destination

/-! ## Swapping in place -/

/-- Exchange two neighbouring fields of `width` bytes that start at an offset. -/
def swapFields (bytes : List UInt8) (offset width : Nat) : List UInt8 :=
  Bytes.overwrite bytes offset
    (Bytes.slice bytes (offset + width) (offset + 2 * width) ++
      Bytes.slice bytes offset (offset + width))

/-- Exchange source and destination in place.  Checksums stay valid, since a sum of words does not
depend on their order. -/
def swap (d : Datagram) : Datagram :=
  let addresses := swapFields d.buffer 12 4
  { d with buffer := swapFields addresses (Ipv4.lengthAt d.buffer) 2, headers := d.headers.swap }

/-! ## Making packets -/

/-- The packet with the given headers and payload. -/
def make (headers : Headers) (payload : List UInt8) : Except MakeError Datagram :=
  let size := Ipv4.headerLength + headers.transport.headerLength + payload.length
  let w := headers.write (List.replicate size 0) payload
  match w.result with
  | .error e => .error (.write e)
  | .ok _ => (parse w.buffer).mapError .malformed

/-- A TCP packet between two endpoints. -/
def tcp (source destination : Net.Endpoint) (flags : UInt8) (sequence acknowledgement : UInt32)
    (payload : List UInt8) : Except MakeError Datagram :=
  make (Headers.tcp source destination flags sequence acknowledgement) payload

/-- A UDP packet between two endpoints. -/
def udp (source destination : Net.Endpoint) (payload : List UInt8) : Except MakeError Datagram :=
  make (Headers.udp source destination) payload

/-! ## Checksums -/

/-- Whether the checksums of both headers verify. -/
def checksumsVerify (d : Datagram) : Bool :=
  let headerLength := Ipv4.lengthAt d.buffer
  let segment := Bytes.slice d.buffer headerLength d.length
  let pseudo := pseudoSum d.headers.network.source d.headers.network.destination
    d.headers.protocol.number segment.length
  decide (Verifies (wordSum (d.buffer.take headerLength))) &&
    decide (Verifies (pseudo + wordSum segment))

end Datagram

end FlowRelay.Packet
