import FlowRelay.Packet.Ipv4

/-!
# FlowRelay.Packet.Udp

The UDP header of 8 bytes.
-/

namespace FlowRelay.Packet

/-- A UDP header without its checksum. -/
structure Udp where
  source : UInt16
  destination : UInt16
  length : UInt16
  deriving DecidableEq, Repr, Inhabited

namespace Udp

/-- The length of a header. -/
def headerLength : Nat := 8

/-- The header of a datagram that is sent from here; its length is filled in when it is written. -/
def make (source destination : UInt16) : Udp := { source, destination, length := 0 }

/-- The header of an answer: both ports exchanged. -/
def swap (h : Udp) : Udp := { h with source := h.destination, destination := h.source }

/-- The text of a header. -/
def text (h : Udp) : String :=
  s!"UDP: {h.source.toNat} -> {h.destination.toNat}, Length = {h.length.toNat}"

/-! ## Reading -/

/-- Read a header of 8 bytes. -/
def ofBytes (bytes : List UInt8) : Udp :=
  { source := Bytes.word16At bytes 0
    destination := Bytes.word16At bytes 2
    length := Bytes.word16At bytes 4 }

/-! ## Writing -/

/-- The bytes of the header of a datagram of `length` bytes, with the given checksum. -/
def bytesWith (h : Udp) (length checksum : UInt16) : List UInt8 :=
  Bytes.split16 h.source ++ Bytes.split16 h.destination ++ Bytes.split16 length ++
    Bytes.split16 checksum

/-- The bytes of the header in front of a payload. -/
def bytes (h : Udp) (source destination : Net.Address) (payload : List UInt8) : List UInt8 :=
  let length := headerLength + payload.length
  h.bytesWith length.toUInt16 (checksumOf
    (pseudoSum source destination Protocol.udp.number length +
      wordSum (h.bytesWith length.toUInt16 0) + wordSum payload))

/-- Write the header in front of the payload staged behind it, for a datagram of `n` bytes. -/
def write (h : Udp) (source destination : Net.Address) (buffer : List UInt8) (n : Nat) :
    Written :=
  if n > 65535 then .refuse buffer .lengthTooBig
  else if buffer.length < n ∨ n < headerLength then .refuse buffer .bufferTooSmall
  else
    let payload := Bytes.slice buffer headerLength n
    ⟨Bytes.overwrite buffer 0 (h.bytes source destination payload), .ok headerLength⟩

end Udp

end FlowRelay.Packet
