import FlowRelay.Deflate.Inflate
import FlowRelay.Gzip.Crc32

/-!
# FlowRelay.Gzip.Member

A gzip member: a header, a DEFLATE stream, and a trailer with the check value and the length of the
decompressed bytes.  `decompress?` reads one member and ignores what follows it.
-/

namespace FlowRelay.Gzip

/-- The two bytes that open a member. -/
def magic : List UInt8 := [0x1F, 0x8B]

/-- The longest file name or comment that a header may hold. -/
def maxTextField : Nat := 65535

/-- The header flags: a check value of the header, extra data, a file name, a comment. -/
def flagHeaderCheck : UInt8 := 0x02
def flagExtra : UInt8 := 0x04
def flagName : UInt8 := 0x08
def flagComment : UInt8 := 0x10
def reservedFlags : UInt8 := 0xE0

/-- Drop a field of extra data with its length in front. -/
def dropExtra? : List UInt8 → Option (List UInt8)
  | low :: high :: rest =>
    let length := low.toNat + 256 * high.toNat
    let left := rest.drop length
    if (rest.take length).length = length then some left else none
  | _ => none

/-- Drop a text that a zero byte ends, of at most so many bytes. -/
def dropText? : Nat → List UInt8 → Option (List UInt8)
  | _, [] => none
  | room, b :: rest =>
    if b = 0 then some rest
    else match room with
      | 0 => none
      | room + 1 => dropText? room rest

/-- Check the low half of the check value of the header read so far. -/
def dropHeaderCheck? (all : List UInt8) : List UInt8 → Option (List UInt8)
  | low :: high :: rest =>
    let header := all.take (all.length - (rest.length + 2))
    let check := (crc32 header).toNat % 65536
    if low.toNat + 256 * high.toNat = check then some rest else none
  | _ => none

/-- Drop the header of a member. -/
def dropHeader? (bytes : List UInt8) : Option (List UInt8) :=
  match bytes with
  | id1 :: id2 :: method :: flags :: _ :: _ :: _ :: _ :: _ :: _ :: rest =>
    if [id1, id2] = magic ∧ method = 8 ∧ flags &&& reservedFlags = 0 then do
      let rest ← if flags &&& flagExtra = 0 then some rest else dropExtra? rest
      let rest ← if flags &&& flagName = 0 then some rest else dropText? maxTextField rest
      let rest ← if flags &&& flagComment = 0 then some rest else dropText? maxTextField rest
      if flags &&& flagHeaderCheck = 0 then some rest else dropHeaderCheck? bytes rest
    else none
  | _ => none

/-- The number of four bytes, least significant first. -/
def littleEndian32 (a b c d : UInt8) : Nat :=
  a.toNat + 256 * (b.toNat + 256 * (c.toNat + 256 * d.toNat))

/-- The decompressed bytes of the member at the front, if header, stream and trailer are good. -/
def decompress? (bytes : List UInt8) : Option (List UInt8) := do
  let rest ← dropHeader? bytes
  let (data, trailer) ← Deflate.inflate? rest
  match trailer with
  | c0 :: c1 :: c2 :: c3 :: n0 :: n1 :: n2 :: n3 :: _ =>
    if littleEndian32 c0 c1 c2 c3 = (crc32 data).toNat ∧
        littleEndian32 n0 n1 n2 n3 = data.length % 0x100000000 then some data
    else none
  | _ => none

end FlowRelay.Gzip
