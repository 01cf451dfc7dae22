import FlowRelay.Bytes
import FlowRelay.Net.Address

/-!
# FlowRelay.Packet.Checksum

The internet checksum: the complement of the one's complement sum of the 16-bit words of a header.
TCP and UDP also sum the payload and a pseudo header of both addresses, the protocol and the length.

The sum is taken over the naturals and its carries are added back in at the end, which makes it
additive over words in any order.
-/

namespace FlowRelay.Packet

/-- Add the big-endian words of the bytes to a sum; a last odd byte is the high byte of a word. -/
def wordSum.go (sum : Nat) : List UInt8 → Nat
  | [] => sum
  | [hi] => sum + hi.toNat * 256
  | hi :: lo :: rest => go (sum + (hi.toNat * 256 + lo.toNat)) rest

/-- The sum of the big-endian words of the bytes. -/
def wordSum (bytes : List UInt8) : Nat := wordSum.go 0 bytes

/-- Add the carries of a sum back in until it fits 16 bits.  Only the sum 0 gives 0. -/
def foldCarries (sum : Nat) : Nat := if sum = 0 then 0 else (sum - 1) % 65535 + 1

/-- The checksum that a sum asks for. -/
def checksumOf (sum : Nat) : UInt16 := (65535 - foldCarries sum).toUInt16

/-- Whether the words that a sum was taken over, their checksum included, verify. -/
def Verifies (sum : Nat) : Prop := foldCarries sum = 65535

instance (sum : Nat) : Decidable (Verifies sum) := inferInstanceAs (Decidable (_ = _))

/-- The sum of the pseudo header in front of a segment of the given length. -/
def pseudoSum (source destination : Net.Address) (protocol : UInt8) (length : Nat) : Nat :=
  wordSum source.bytes + wordSum destination.bytes + protocol.toNat + length

end FlowRelay.Packet
