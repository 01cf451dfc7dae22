import FlowRelay.Http.Reassembler

/-!
# FlowRelay.Proofs.Gzip.Stored

What is packed without compression is unpacked unchanged.

1. *Blocks* (`Deflate.blocks?_stream`): stored blocks give their bytes back, one block after the
   other, however the unused bits of their first bytes are set.
2. *Streams* (`Deflate.inflate?_stream`): so does a stream of them, and what stands behind the
   stream is left.
3. *Members* (`Gzip.StoredMember.decompress?_bytes`): so does a member with such a stream, whatever
   its data are; and all data can be packed in this way (`Gzip.StoredMember.exists_data_eq`).
4. *Bodies* (`Http.Message.decoded_storedMember`): a body that is such a member is delivered
   unpacked, whether the header announces it or not.
-/

namespace FlowRelay

/-! ## Blocks -/

namespace Deflate

/-- A stored block. -/
structure StoredBlock where
  data : List UInt8
  /-- The upper five bits of the first byte, which have no meaning. -/
  padding : Fin 32
  length_data_le : data.length ≤ 0xFFFF

namespace StoredBlock

/-- The first byte: from the lowest bit on, whether the block is the final one, two zero bits for
its kind, and padding. -/
def opening (b : StoredBlock) (final : Bool) : UInt8 :=
  (8 * b.padding.val + if final then 1 else 0).toUInt8

/-- The bytes of a block: behind the first one its length, the complement of that, and its data. -/
def bytes (b : StoredBlock) (final : Bool) : List UInt8 :=
  let low := b.data.length.toUInt8
  let high := (b.data.length / 0x100).toUInt8
  b.opening final :: low :: high :: ~~~low :: ~~~high :: b.data

/-- The lowest bits of a first byte, whatever its padding is. -/
theorem opening_bits (b : StoredBlock) (final : Bool) :
    ((b.opening final >>> 0) &&& 1).toNat = (if final then 1 else 0) ∧
      ((b.opening final >>> 1) &&& 1).toNat = 0 ∧ ((b.opening final >>> 2) &&& 1).toNat = 0 := by
  have hbits : ∀ (padding : Fin 32) (final : Bool),
      let first := (8 * padding.val + if final then 1 else 0).toUInt8
      ((first >>> 0) &&& 1).toNat = (if final then 1 else 0) ∧
        ((first >>> 1) &&& 1).toNat = 0 ∧ ((first >>> 2) &&& 1).toNat = 0 := by
    decide
  exact hbits b.padding final

/-- The first field of a block says whether it is the final one. -/
theorem field?_final (b : StoredBlock) (final : Bool) (rest : List UInt8) :
    (Bits.ofBytes (b.opening final :: rest)).field? 1 =
      some (if final then 1 else 0, ⟨b.opening final :: rest, 1⟩) := by
  obtain ⟨hfinal, -, -⟩ := b.opening_bits final
  change some (((b.opening final >>> 0) &&& 1).toNat + 2 * 0,
    Bits.mk (b.opening final :: rest) 1) = _
  rw [hfinal, Nat.mul_zero, Nat.add_zero]

/-- The second field is the kind of stored blocks. -/
theorem field?_kind (b : StoredBlock) (final : Bool) (rest : List UInt8) :
    Bits.field? 2 ⟨b.opening final :: rest, 1⟩ = some (0, ⟨b.opening final :: rest, 3⟩) := by
  obtain ⟨-, hlow, hhigh⟩ := b.opening_bits final
  change some (((b.opening final >>> 1) &&& 1).toNat +
    2 * (((b.opening final >>> 2) &&& 1).toNat + 2 * 0), Bits.mk (b.opening final :: rest) 3) = _
  rw [hlow, hhigh]

/-- The length of a block is read back from its two bytes. -/
theorem length_eq (b : StoredBlock) :
    b.data.length.toUInt8.toNat + 256 * (b.data.length / 0x100).toUInt8.toNat =
      b.data.length := by
  have hfits := b.length_data_le
  simp only [Nat.toUInt8_eq, UInt8.toNat_ofNat']
  omega

/-- Behind its first byte a block is copied. -/
theorem stored?_bytes (b : StoredBlock) (final : Bool) (out : Array UInt8) (rest : List UInt8) :
    stored? out ⟨b.bytes final ++ rest, 3⟩ = some (out ++ b.data, Bits.ofBytes rest) := by
  have hbytes : Bits.alignedBytes ⟨b.bytes final ++ rest, 3⟩ =
      b.data.length.toUInt8 :: (b.data.length / 0x100).toUInt8 :: ~~~b.data.length.toUInt8 ::
        ~~~(b.data.length / 0x100).toUInt8 :: (b.data ++ rest) := rfl
  simp only [stored?, hbytes, length_eq, List.take_left, List.drop_left, and_self, if_true]

end StoredBlock

/-- The bytes of stored blocks, of which the last one is marked as final. -/
def storedStream (last : StoredBlock) : List StoredBlock → List UInt8
  | [] => last.bytes true
  | b :: rest => b.bytes false ++ storedStream last rest

/-- A block is decoded in one turn, which ends the stream if the block is the final one. -/
theorem blocks?_bytes (b : StoredBlock) (final : Bool) (fuel count : Nat) (out : Array UInt8)
    (rest : List UInt8) :
    blocks? fuel (count + 1) out (Bits.ofBytes (b.bytes final ++ rest)) =
      if final then some (out ++ b.data, Bits.ofBytes rest)
      else blocks? fuel count (out ++ b.data) (Bits.ofBytes rest) := by
  have hstored := b.stored?_bytes final out rest
  rw [StoredBlock.bytes] at hstored ⊢
  rw [List.cons_append] at hstored ⊢
  simp only [blocks?, b.field?_final, b.field?_kind, if_true, hstored]
  cases final <;> rfl

/-- **Blocks**: stored blocks give their data back one after the other. -/
theorem blocks?_storedStream (last : StoredBlock) (blocks : List StoredBlock) (fuel count : Nat)
    (out : Array UInt8) (behind : List UInt8) (hcount : blocks.length < count) :
    blocks? fuel count out (Bits.ofBytes (storedStream last blocks ++ behind)) =
      some (out ++ (blocks ++ [last]).flatMap (·.data), Bits.ofBytes behind) := by
  induction blocks generalizing count out with
  | nil =>
      obtain ⟨count, rfl⟩ := Nat.exists_eq_succ_of_ne_zero (Nat.ne_of_gt hcount)
      rw [storedStream, blocks?_bytes]
      simp
  | cons b rest ih =>
      obtain ⟨count, rfl⟩ := Nat.exists_eq_succ_of_ne_zero (Nat.ne_of_gt (Nat.zero_lt_of_lt hcount))
      have hdata : out ++ b.data ++ (rest ++ [last]).flatMap (·.data) =
          out ++ (b :: rest ++ [last]).flatMap (·.data) :=
        Array.ext' (by simp [List.append_assoc])
      rw [storedStream, List.append_assoc, blocks?_bytes, if_neg Bool.false_ne_true,
        ih count _ (Nat.lt_of_succ_lt_succ hcount), hdata]

/-- Every block takes up bytes. -/
theorem length_lt_length_storedStream (last : StoredBlock) (blocks : List StoredBlock) :
    blocks.length < (storedStream last blocks).length := by
  induction blocks with
  | nil => simp [storedStream, StoredBlock.bytes]
  | cons b rest ih =>
      simp only [storedStream, StoredBlock.bytes, List.length_append, List.length_cons]
      omega

/-- **Streams**: a stream of stored blocks is unpacked, and what is behind it is left. -/
theorem inflate?_storedStream (last : StoredBlock) (blocks : List StoredBlock)
    (behind : List UInt8) :
    inflate? (storedStream last blocks ++ behind) =
      some ((blocks ++ [last]).flatMap (·.data), behind) := by
  have hlength := length_lt_length_storedStream last blocks
  rw [inflate?, blocks?_storedStream last blocks _ _ _ behind (by
    rw [List.length_append]
    omega)]
  simp [Bits.alignedBytes, Bits.ofBytes]

end Deflate

/-! ## Members -/

namespace Gzip

open Deflate (StoredBlock storedStream)

/-- The four bytes of a number, least significant first. -/
def bytes32 (n : Nat) : List UInt8 :=
  [n.toUInt8, (n / 0x100).toUInt8, (n / 0x10000).toUInt8, (n / 0x1000000).toUInt8]

/-- A number below the bound is read back from its four bytes. -/
theorem littleEndian32_bytes32 (n : Nat) :
    littleEndian32 n.toUInt8 (n / 0x100).toUInt8 (n / 0x10000).toUInt8 (n / 0x1000000).toUInt8 =
      n % 0x100000000 := by
  simp only [littleEndian32, Nat.toUInt8_eq, UInt8.toNat_ofNat']
  omega

/-- A member without optional fields that holds its data in stored blocks. -/
structure StoredMember where
  /-- What the header says of the origin of the data: six bytes, which nobody looks at. -/
  stamp : List UInt8
  blocks : List StoredBlock
  last : StoredBlock
  length_stamp : stamp.length = 6

namespace StoredMember

/-- What a member holds. -/
def data (m : StoredMember) : List UInt8 := (m.blocks ++ [m.last]).flatMap (·.data)

/-- The bytes of a member: a header, a stream, the check value and the length of the data. -/
def bytes (m : StoredMember) : List UInt8 :=
  magic ++ [8, 0] ++ m.stamp ++ storedStream m.last m.blocks ++
    bytes32 (crc32 m.data).toNat ++ bytes32 m.data.length

/-- The header of a member is dropped as a whole. -/
theorem dropHeader?_bytes (m : StoredMember) (behind : List UInt8) :
    dropHeader? (m.bytes ++ behind) =
      some (storedStream m.last m.blocks ++
        (bytes32 (crc32 m.data).toNat ++ bytes32 m.data.length ++ behind)) := by
  obtain ⟨stamp, blocks, last, hstamp⟩ := m
  match stamp, hstamp with
  | [s₀, s₁, s₂, s₃, s₄, s₅], _ =>
      simp only [bytes, magic, List.cons_append, List.nil_append, List.append_assoc, dropHeader?]
      rfl

/-- **Members**: a member with stored blocks is unpacked, whatever stands behind it. -/
theorem decompress?_bytes (m : StoredMember) (behind : List UInt8) :
    decompress? (m.bytes ++ behind) = some m.data := by
  have hcheck : (crc32 m.data).toNat % 0x100000000 = (crc32 m.data).toNat :=
    Nat.mod_eq_of_lt (crc32 m.data).toNat_lt
  have hdata : (m.blocks ++ [m.last]).flatMap (·.data) = m.data := rfl
  simp only [decompress?, dropHeader?_bytes, Deflate.inflate?_storedStream, hdata, bytes32,
    Option.bind_eq_bind, Option.bind_some, List.cons_append, List.nil_append,
    littleEndian32_bytes32, hcheck, and_self, if_true]

/-- All data can be held by a member. -/
theorem exists_data_eq (data : List UInt8) : ∃ m : StoredMember, m.data = data := by
  by_cases hfits : data.length ≤ 0xFFFF
  · exact ⟨⟨List.replicate 6 0, [], ⟨data, 0, hfits⟩, rfl⟩, by simp [StoredMember.data]⟩
  · have hfirst : (data.take 0xFFFF).length ≤ 0xFFFF := List.length_take_le _ _
    obtain ⟨m, hm⟩ := exists_data_eq (data.drop 0xFFFF)
    refine ⟨{ m with blocks := ⟨data.take 0xFFFF, 0, hfirst⟩ :: m.blocks }, ?_⟩
    rw [StoredMember.data] at hm ⊢
    rw [List.cons_append, List.flatMap_cons, hm, List.take_append_drop]
termination_by data.length
decreasing_by
  rw [List.length_drop]
  omega

end StoredMember

end Gzip

/-! ## Bodies -/

namespace Http.Message

open Gzip (StoredMember)

/-- **Bodies**: a body that is a member with stored blocks is delivered unpacked, whether the
header section announces it or not. -/
theorem decoded_storedMember (gzip : Bool) (m : StoredMember) (behind : List UInt8) :
    decoded gzip (m.bytes ++ behind) = some m.data := by
  have hmagic : Gzip.magic.isPrefixOf (m.bytes ++ behind) = true := by
    simp [StoredMember.bytes, Gzip.magic]
  have hbody : (m.bytes ++ behind).isEmpty = false := by
    simp [StoredMember.bytes, Gzip.magic]
  simp only [decoded, hbody, Bool.false_eq_true, if_false, hmagic, Bool.or_true, if_true,
    m.decompress?_bytes, Option.getD_some]

end Http.Message

end FlowRelay
