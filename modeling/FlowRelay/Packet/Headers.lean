import FlowRelay.Packet.Tcp
import FlowRelay.Packet.Udp

/-!
# FlowRelay.Packet.Headers

The headers of a relayed packet: IPv4, and TCP or UDP behind it.  The headers of the first packet of
a flow, swapped, serve as the template that addresses everything sent back on it.

`parse` checks lengths before it reads anything that depends on them and reports the first check
that fails.
-/

namespace FlowRelay.Packet

/-- A transport header. -/
inductive Transport where
  | tcp (h : Tcp)
  | udp (h : Udp)
  deriving DecidableEq, Repr, Inhabited

namespace Transport

def protocol : Transport → Protocol
  | .tcp _ => .tcp
  | .udp _ => .udp

def headerLength : Transport → Nat
  | .tcp _ => Tcp.headerLength
  | .udp _ => Udp.headerLength

def sourcePort : Transport → UInt16
  | .tcp h => h.source
  | .udp h => h.source

def destinationPort : Transport → UInt16
  | .tcp h => h.destination
  | .udp h => h.destination

def swap : Transport → Transport
  | .tcp h => .tcp h.swap
  | .udp h => .udp h.swap

/-- Write the header in front of the payload staged behind it. -/
def write (source destination : Net.Address) (buffer : List UInt8) (n : Nat) :
    Transport → Written
  | .tcp h => h.write source destination buffer n
  | .udp h => h.write source destination buffer n

end Transport

/-- The headers of a packet. -/
structure Headers where
  network : Ipv4
  transport : Transport
  deriving DecidableEq, Repr, Inhabited

/-- Why bytes are not a packet that can be relayed. -/
inductive Malformed where
  | tooShort
  | unsupportedVersion (version : UInt8)
  | unsupportedProtocol (protocol : UInt8)
  | fragmented
  | invalidLength
  deriving DecidableEq, Repr

/-- The wording of a refusal. -/
def Malformed.message : Malformed → String
  | .tooShort => "packet too short"
  | .unsupportedVersion version => s!"unsupported IP version {version.toNat}"
  | .unsupportedProtocol protocol => s!"unsupported protocol {protocol.toNat}"
  | .fragmented => "fragmented datagram"
  | .invalidLength => "invalid length"

/-- Where the payload lies in the bytes of a packet. -/
structure Span where
  start : Nat
  stop : Nat
  deriving DecidableEq, Repr

namespace Headers

/-! ## Making headers -/

/-- The headers of a TCP segment between two endpoints. -/
def tcp (source destination : Net.Endpoint) (flags : UInt8) (sequence acknowledgement : UInt32) :
    Headers :=
  { network := Ipv4.make 0 .tcp source.address destination.address
    transport := .tcp (Tcp.make source.port destination.port flags sequence acknowledgement) }

/-- The headers of a UDP datagram between two endpoints. -/
def udp (source destination : Net.Endpoint) : Headers :=
  { network := Ipv4.make 0 .udp source.address destination.address
    transport := .udp (Udp.make source.port destination.port) }

/-! ## Fields -/

def protocol (h : Headers) : Protocol := h.transport.protocol

def source (h : Headers) : Net.Endpoint := ⟨h.network.source, h.transport.sourcePort⟩

def destination (h : Headers) : Net.Endpoint :=
  ⟨h.network.destination, h.transport.destinationPort⟩

def tcp? (h : Headers) : Option Tcp :=
  match h.transport with
  | .tcp t => some t
  | .udp _ => none

def udp? (h : Headers) : Option Udp :=
  match h.transport with
  | .tcp _ => none
  | .udp u => some u

/-- The headers of an answer: addresses and ports exchanged. -/
def swap (h : Headers) : Headers := { network := h.network.swap, transport := h.transport.swap }

/-- The text of the headers. -/
def text (h : Headers) : String :=
  let ends := s!"{h.source.text} -> {h.destination.text}"
  match h.transport with
  | .tcp t => s!"TCP: {ends} {t.flagText}"
  | .udp u => s!"UDP: {ends}, Length = {u.length.toNat}"

/-! ## Reading -/

/-- Read a transport header and say where the payload lies, counted from the start of the segment.
What is behind the payload of a datagram is padding. -/
def parseTransport (number : UInt8) (segment : List UInt8) :
    Except Malformed (Transport × Span) :=
  match Protocol.ofNumber? number with
  | none => .error (.unsupportedProtocol number)
  | some .tcp =>
    if segment.length < Tcp.headerLength then .error .tooShort
    else
      let offset := Tcp.lengthAt segment
      if offset < Tcp.headerLength ∨ offset > segment.length then .error .invalidLength
      else .ok (.tcp (Tcp.ofBytes segment), ⟨offset, segment.length⟩)
  | some .udp =>
    if segment.length < Udp.headerLength then .error .tooShort
    else
      let h := Udp.ofBytes segment
      let length := h.length.toNat
      if length < Udp.headerLength ∨ length > segment.length then .error .invalidLength
      else .ok (.udp h, ⟨Udp.headerLength, length⟩)

/-- Read the headers of a packet and say where its payload lies.  Bytes past the total length that
the packet states do not belong to it. -/
def parse (bytes : List UInt8) : Except Malformed (Headers × Span) :=
  if bytes.length < Ipv4.headerLength then .error .tooShort
  else
    let network := Ipv4.ofBytes bytes
    let headerLength := Ipv4.lengthAt bytes
    let totalLength := network.totalLength.toNat
    if network.version ≠ 4 then .error (.unsupportedVersion network.version)
    else if headerLength < Ipv4.headerLength ∨ headerLength > bytes.length then
      .error .invalidLength
    else if totalLength < headerLength ∨ totalLength > bytes.length then .error .invalidLength
    else if network.isFragment then .error .fragmented
    else
      match parseTransport network.protocol (Bytes.slice bytes headerLength totalLength) with
      | .error e => .error e
      | .ok (transport, payload) =>
        .ok (⟨network, transport⟩, ⟨headerLength + payload.start, headerLength + payload.stop⟩)

/-! ## Writing -/

/-- The IPv4 header of a packet that is sent from here with the addressing of the headers. -/
def freshNetwork (h : Headers) : Ipv4 :=
  Ipv4.make 0 h.protocol h.network.source h.network.destination

/-- Write both headers, the transport header first, for a packet of `n` bytes. -/
def writeBoth (network : Ipv4) (transport : List UInt8 → Nat → Written) (buffer : List UInt8)
    (n : Nat) : Written :=
  (Written.behind buffer Ipv4.headerLength fun b => transport b (n - Ipv4.headerLength)).andThen
    fun buffer _ => (network.write buffer n).andThen fun buffer _ => ⟨buffer, .ok n⟩

/-- Where the payload of a TCP packet that is sent from here starts. -/
def tcpPayloadOffset : Nat := Ipv4.headerLength + Tcp.headerLength

/-- Where the payload of a UDP packet that is sent from here starts. -/
def udpPayloadOffset : Nat := Ipv4.headerLength + Udp.headerLength

/-- Write a TCP packet with the addressing of the headers in front of a payload that is already
staged in the buffer. -/
def writeTcpResponse (h : Headers) (buffer : List UInt8) (flags : UInt8)
    (sequence acknowledgement : UInt32) (payloadLength : Nat) : Written :=
  match h.transport with
  | .udp _ => .refuse buffer .notTcp
  | .tcp t =>
    let n := tcpPayloadOffset + payloadLength
    if buffer.length < n then .refuse buffer .bufferTooSmall
    else
      let t := t.control flags sequence acknowledgement
      writeBoth h.freshNetwork (t.write h.network.source h.network.destination) buffer n

/-- Write a UDP packet with the addressing of the headers in front of a payload that is already
staged in the buffer. -/
def writeUdpResponse (h : Headers) (buffer : List UInt8) (payloadLength : Nat) : Written :=
  match h.transport with
  | .tcp _ => .refuse buffer .notUdp
  | .udp u =>
    let n := udpPayloadOffset + payloadLength
    if buffer.length < n then .refuse buffer .bufferTooSmall
    else writeBoth h.freshNetwork (u.write h.network.source h.network.destination) buffer n

/-- Write a packet with these headers and a payload. -/
def write (h : Headers) (buffer payload : List UInt8) : Written :=
  let n := Ipv4.headerLength + h.transport.headerLength + payload.length
  if buffer.length < n then .refuse buffer .bufferTooSmall
  else
    let transport (b : List UInt8) (n : Nat) : Written :=
      h.transport.write h.network.source h.network.destination b n
    writeBoth h.freshNetwork
      (fun b n => writeWithPayload h.transport.headerLength transport b payload n) buffer n

end Headers

end FlowRelay.Packet
