import FlowRelay.Packet.Ipv4

/-!
# FlowRelay.Packet.Tcp

The TCP header.  Options are not kept: a header is always written in its minimal form of 20 bytes.
-/

namespace FlowRelay.Packet

/-! ## Control flags -/

/-- The control flags of a segment, one bit each. -/
def Flag.fin : UInt8 := 0x01
def Flag.syn : UInt8 := 0x02
def Flag.rst : UInt8 := 0x04
def Flag.psh : UInt8 := 0x08
def Flag.ack : UInt8 := 0x10
def Flag.urg : UInt8 := 0x20

/-- A TCP header without its options and its checksum. -/
structure Tcp where
  source : UInt16
  destination : UInt16
  sequence : UInt32
  acknowledgement : UInt32
  flags : UInt8
  window : UInt16
  urgent : UInt16
  deriving DecidableEq, Repr, Inhabited

namespace Tcp

/-- The length of a header without options. -/
def headerLength : Nat := 20

/-- The window that is advertised in every segment sent from here. -/
def fullWindow : UInt16 := 65535

/-- The header of a segment that is sent from here. -/
def make (source destination : UInt16) (flags : UInt8) (sequence acknowledgement : UInt32) : Tcp :=
  { source, destination, sequence, acknowledgement, flags, window := fullWindow, urgent := 0 }

/-! ## Fields -/

def isAck (h : Tcp) : Bool := h.flags &&& Flag.ack != 0
def isRst (h : Tcp) : Bool := h.flags &&& Flag.rst != 0
def isSyn (h : Tcp) : Bool := h.flags &&& Flag.syn != 0
def isFin (h : Tcp) : Bool := h.flags &&& Flag.fin != 0
def isPsh (h : Tcp) : Bool := h.flags &&& Flag.psh != 0

/-- The letters of the flags that are set. -/
def flagText (h : Tcp) : String :=
  let letter (isSet : Bool) (s : String) : String := if isSet then s else ""
  "[" ++ letter h.isSyn "S" ++ letter h.isRst "R" ++ letter h.isFin "F" ++ letter h.isPsh "P" ++
    letter h.isAck "." ++ "]"

/-- The header of an answer: both ports exchanged. -/
def swap (h : Tcp) : Tcp := { h with source := h.destination, destination := h.source }

/-- The header with other flags and numbers, and with the window that is advertised from here. -/
def control (h : Tcp) (flags : UInt8) (sequence acknowledgement : UInt32) : Tcp :=
  { h with flags, sequence, acknowledgement, window := fullWindow }

/-- The text of a header. -/
def text (h : Tcp) : String :=
  s!"TCP: {h.source.toNat} -> {h.destination.toNat} {h.flagText}"

/-! ## Reading -/

/-- Read the fixed part of a header, of 20 bytes or more. -/
def ofBytes (bytes : List UInt8) : Tcp :=
  { source := Bytes.word16At bytes 0
    destination := Bytes.word16At bytes 2
    sequence := Bytes.word32At bytes 4
    acknowledgement := Bytes.word32At bytes 8
    flags := Bytes.byteAt bytes 13
    window := Bytes.word16At bytes 14
    urgent := Bytes.word16At bytes 18 }

/-- The length of the header at the front of the bytes, options included. -/
def lengthAt (bytes : List UInt8) : Nat := (Bytes.byteAt bytes 12 >>> 4).toNat * 4

/-! ## Writing -/

/-- The bytes of the header with the given checksum. -/
def bytesWith (h : Tcp) (checksum : UInt16) : List UInt8 :=
  Bytes.split16 h.source ++ Bytes.split16 h.destination ++ Bytes.split32 h.sequence ++
    Bytes.split32 h.acknowledgement ++ [0x50, h.flags] ++ Bytes.split16 h.window ++
    Bytes.split16 checksum ++ Bytes.split16 h.urgent

/-- The bytes of the header in front of a payload. -/
def bytes (h : Tcp) (source destination : Net.Address) (payload : List UInt8) : List UInt8 :=
  let length := headerLength + payload.length
  h.bytesWith (checksumOf
    (pseudoSum source destination Protocol.tcp.number length + wordSum (h.bytesWith 0) +
      wordSum payload))

/-- Write the header in front of the payload staged behind it, for a segment of `n` bytes. -/
def write (h : Tcp) (source destination : Net.Address) (buffer : List UInt8) (n : Nat) :
    Written :=
  if buffer.length < n ∨ n < headerLength then .refuse buffer .bufferTooSmall
  else
    let payload := Bytes.slice buffer headerLength n
    ⟨Bytes.overwrite buffer 0 (h.bytes source destination payload), .ok headerLength⟩

end Tcp

end FlowRelay.Packet
