import FlowRelay.Packet.Checksum
import FlowRelay.Packet.Write

/-!
# FlowRelay.Packet.Ipv4

The IPv4 header.  Options are not kept: a header is always written in its minimal form of 20 bytes.
-/

namespace FlowRelay.Packet

/-- The transport protocols that are relayed. -/
inductive Protocol where
  | tcp
  | udp
  deriving DecidableEq, Repr, Inhabited

namespace Protocol

/-- The number of a protocol in an IPv4 header. -/
def number : Protocol → UInt8
  | .tcp => 6
  | .udp => 17

/-- The protocol of a number. -/
def ofNumber? (n : UInt8) : Option Protocol :=
  if n = 6 then some .tcp else if n = 17 then some .udp else none

/-- The name of a protocol. -/
def text : Protocol → String
  | .tcp => "TCP"
  | .udp => "UDP"

end Protocol

/-- An IPv4 header without its options and its checksum. -/
structure Ipv4 where
  version : UInt8
  /-- Differentiated services and congestion notification. -/
  service : UInt8
  totalLength : UInt16
  identification : UInt16
  /-- Three flags in front of the fragment offset. -/
  fragment : UInt16
  ttl : UInt8
  protocol : UInt8
  source : Net.Address
  destination : Net.Address
  deriving DecidableEq, Repr, Inhabited

namespace Ipv4

/-- The length of a header without options. -/
def headerLength : Nat := 20

/-- The header of a packet that is sent from here; its length is filled in when it is written. -/
def make (identification : UInt16) (protocol : Protocol) (source destination : Net.Address) :
    Ipv4 :=
  { version := 4, service := 0, totalLength := 0, identification, fragment := 0, ttl := 128
    protocol := protocol.number, source, destination }

/-! ## Fields -/

/-- Whether more fragments follow. -/
def moreFragments (h : Ipv4) : Bool := h.fragment &&& 0x2000 != 0

/-- The place of a fragment in its datagram, in units of eight bytes. -/
def fragmentOffset (h : Ipv4) : UInt16 := h.fragment &&& 0x1FFF

/-- Whether the packet is a fragment of a datagram. -/
def isFragment (h : Ipv4) : Bool := h.moreFragments || h.fragmentOffset != 0

/-- The transport protocol, if it is one of those that are relayed. -/
def protocol? (h : Ipv4) : Option Protocol := Protocol.ofNumber? h.protocol

/-- The header of an answer: both addresses exchanged. -/
def swap (h : Ipv4) : Ipv4 := { h with source := h.destination, destination := h.source }

/-- The text of a header. -/
def text (h : Ipv4) : String :=
  let fragment :=
    if h.isFragment then s!", Fragment = {h.fragmentOffset.toNat * 8}" else ""
  s!"IPv4: {h.source.text} -> {h.destination.text}, Length = {h.totalLength.toNat}{fragment}"

/-! ## Reading -/

/-- The four octets of an address at an offset. -/
def addressAt (bytes : List UInt8) (offset : Nat) : Net.Address :=
  ⟨Bytes.byteAt bytes offset, Bytes.byteAt bytes (offset + 1), Bytes.byteAt bytes (offset + 2),
    Bytes.byteAt bytes (offset + 3)⟩

/-- Read the fixed part of a header, of 20 bytes or more. -/
def ofBytes (bytes : List UInt8) : Ipv4 :=
  { version := Bytes.byteAt bytes 0 >>> 4
    service := Bytes.byteAt bytes 1
    totalLength := Bytes.word16At bytes 2
    identification := Bytes.word16At bytes 4
    fragment := Bytes.word16At bytes 6
    ttl := Bytes.byteAt bytes 8
    protocol := Bytes.byteAt bytes 9
    source := addressAt bytes 12
    destination := addressAt bytes 16 }

/-- The length of the header at the front of the bytes, options included. -/
def lengthAt (bytes : List UInt8) : Nat := ((Bytes.byteAt bytes 0) &&& 0x0F).toNat * 4

/-! ## Writing -/

/-- The bytes of the header in front of a packet of `length` bytes, with the given checksum. -/
def bytesWith (h : Ipv4) (length checksum : UInt16) : List UInt8 :=
  [h.version <<< 4 ||| 5, h.service] ++ Bytes.split16 length ++
    Bytes.split16 h.identification ++ Bytes.split16 h.fragment ++ [h.ttl, h.protocol] ++
    Bytes.split16 checksum ++ h.source.bytes ++ h.destination.bytes

/-- The bytes of the header in front of a packet of `length` bytes. -/
def bytes (h : Ipv4) (length : UInt16) : List UInt8 :=
  h.bytesWith length (checksumOf (wordSum (h.bytesWith length 0)))

/-- Write the header at the front of a packet of `n` bytes. -/
def write (h : Ipv4) (buffer : List UInt8) (n : Nat) : Written :=
  if n > 65535 then .refuse buffer .lengthTooBig
  else if buffer.length < n ∨ n < headerLength then .refuse buffer .bufferTooSmall
  else ⟨Bytes.overwrite buffer 0 (h.bytes n.toUInt16), .ok headerLength⟩

end Ipv4

end FlowRelay.Packet
