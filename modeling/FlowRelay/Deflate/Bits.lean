/-!
# FlowRelay.Deflate.Bits

The bit stream of DEFLATE: bytes in order, the bits of each byte from the least significant one on.
A field of several bits comes least significant bit first.
-/

namespace FlowRelay.Deflate

/-- What is left of a bit stream: its bytes, of whose first one `used` bits are read already. -/
structure Bits where
  bytes : List UInt8
  used : Nat

namespace Bits

/-- The stream of all bits of the bytes. -/
def ofBytes (bytes : List UInt8) : Bits := ⟨bytes, 0⟩

/-- The next bit as a number, or nothing at the end. -/
def bit? (s : Bits) : Option (Nat × Bits) :=
  match s.bytes with
  | [] => none
  | b :: rest =>
    let value := ((b >>> s.used.toUInt8) &&& 1).toNat
    some (value, if s.used < 7 then ⟨s.bytes, s.used + 1⟩ else ⟨rest, 0⟩)

/-- The next field of `width` bits. -/
def field? (width : Nat) (s : Bits) : Option (Nat × Bits) :=
  match width with
  | 0 => some (0, s)
  | width + 1 =>
    match s.bit? with
    | none => none
    | some (low, s) =>
      match field? width s with
      | none => none
      | some (high, s) => some (low + 2 * high, s)

/-- The bytes behind the byte that is being read. -/
def alignedBytes (s : Bits) : List UInt8 := if s.used = 0 then s.bytes else s.bytes.drop 1

example : (ofBytes [0b1010_0110, 0x01]).field? 9 = some (0b1_1010_0110, ⟨[0x01], 1⟩) := rfl

end Bits

end FlowRelay.Deflate
