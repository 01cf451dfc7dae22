import FlowRelay.Proofs.Packet.Response

/-!
# FlowRelay.Proofs.Packet.ZeroChecksum

Datagrams of UDP whose checksum field is left at 0, which stands for no checksum at all.

1. *Checksums* (`checksumOf_eq_zero_iff`): the checksum of a sum is 0 exactly if the sum is a
   multiple of 65535 other than 0.
2. *Sums* (`Udp.checkedSum`): what the checksum of a datagram covers.
3. *Fields* (`Written.IsSummed.of_bytes`): every datagram that is written verifies, and its field is
   0 exactly if that sum is a multiple of 65535.
4. *Emission* (`Headers.udp_checksum`): both ways of writing a datagram are like that, and between
   any two endpoints there is a payload of two bytes that leaves the field at 0.
-/

namespace FlowRelay.Packet

open Bytes

/-! ## Checksums -/

/-- The checksum of a sum is 0 where the sum verifies by itself. -/
theorem checksumOf_eq_zero_iff {sum : Nat} (h : 0 < sum) :
    checksumOf sum = 0 ↔ sum % 65535 = 0 := by
  rw [← UInt16.toNat_inj, toNat_checksumOf, UInt16.toNat_zero, foldCarries, if_neg (by omega)]
  omega

/-! ## Sums -/

/-- What the checksum of a datagram covers: both addresses, the protocol and the length in the
pseudo header, both ports and the length in the header, and the payload. -/
def Udp.checkedSum (u : Udp) (source destination : Net.Address) (payload : List UInt8) : Nat :=
  pseudoSum source destination Protocol.udp.number (headerLength + payload.length) +
    (u.source.toNat + u.destination.toNat + (headerLength + payload.length)) + wordSum payload

theorem Udp.checkedSum_pos (u : Udp) (source destination : Net.Address) (payload : List UInt8) :
    0 < u.checkedSum source destination payload := by
  simp only [checkedSum, headerLength]
  omega

/-- Without its checksum, a header is summed as its three fields. -/
theorem Udp.wordSum_bytesWith (u : Udp) (length : UInt16) :
    wordSum (u.bytesWith length 0) = u.source.toNat + u.destination.toNat + length.toNat := by
  have hzero : wordSum (split16 0) = 0 := by decide
  simp only [bytesWith, List.append_assoc]
  rw [wordSum_append _ _ (by simp), wordSum_append _ _ (by simp), wordSum_append _ _ (by simp),
    wordSum_split16, wordSum_split16, wordSum_split16, hzero]
  omega

/-- The checksum of a datagram is the one that its sum asks for. -/
theorem Udp.bytes_eq {u : Udp} {payload : List UInt8} (hmax : headerLength + payload.length ≤ 65535)
    (source destination : Net.Address) :
    u.bytes source destination payload =
      u.bytesWith (headerLength + payload.length).toUInt16
        (checksumOf (u.checkedSum source destination payload)) := by
  have hlength : (headerLength + payload.length).toUInt16.toNat = headerLength + payload.length :=
    UInt16.toNat_ofNat_of_lt' (by simp only [UInt16.size]; omega)
  simp only [bytes, wordSum_bytesWith, hlength, checkedSum]

/-! ## Fields -/

/-- Where the checksum of a datagram stands that is sent from here. -/
def Headers.udpChecksumOffset : Nat := Ipv4.headerLength + 6

/-- A datagram was written whose checksum field is 0 exactly if its sum is a multiple of 65535, and
which verifies in any case. -/
structure Written.IsSummed (w : Written) (h : Headers) (u : Udp) (payload : List UInt8) :
    Prop where
  result_eq : w.result = .ok (Headers.udpPayloadOffset + payload.length)
  field_eq_zero_iff : word16At w.buffer Headers.udpChecksumOffset = 0 ↔
    u.checkedSum h.network.source h.network.destination payload % 65535 = 0
  verifies : Verifies (pseudoSum h.network.source h.network.destination Protocol.udp.number
      (Udp.headerLength + payload.length) +
    wordSum (slice w.buffer Ipv4.headerLength (Headers.udpPayloadOffset + payload.length)))

/-- **Fields**: a datagram that is written in front of anything carries the checksum that its sum
asks for. -/
theorem Written.IsSummed.of_bytes {w : Written} {h : Headers} {u : Udp} {payload rest : List UInt8}
    (hu : h.transport = .udp u) (hmax : h.size payload ≤ 65535)
    (hw : w = ⟨h.bytes payload ++ rest, .ok (h.size payload)⟩) : w.IsSummed h u payload := by
  have hsize : h.size payload = Headers.udpPayloadOffset + payload.length := by
    rw [Headers.size, hu]
    rfl
  have hsegment : Udp.headerLength + payload.length ≤ 65535 := by
    rw [hsize, Headers.udpPayloadOffset] at hmax
    omega
  have hbytes : h.transport.bytes h.network.source h.network.destination payload =
      u.bytes h.network.source h.network.destination payload := by
    rw [hu]
    rfl
  subst hw
  constructor
  case result_eq => rw [hsize]
  case field_eq_zero_iff =>
    have hfield : word16At (h.bytes payload ++ rest) Headers.udpChecksumOffset =
        checksumOf (u.checkedSum h.network.source h.network.destination payload) := by
      rw [Headers.bytes, List.append_assoc, Headers.udpChecksumOffset,
        word16At_append (Ipv4.length_bytes _ _), hbytes, Udp.bytes_eq hsegment]
      simp [Udp.bytesWith, split16, word16At, byteAt, join16_split]
    rw [hfield, checksumOf_eq_zero_iff (Udp.checkedSum_pos _ _ _ _)]
  case verifies =>
    have hslice : slice (h.bytes payload ++ rest) Ipv4.headerLength
        (Headers.udpPayloadOffset + payload.length) =
        u.bytes h.network.source h.network.destination payload ++ payload := by
      rw [← hbytes, ← h.slice_bytes, hsize, slice, slice,
        List.drop_append_of_le_length (by rw [h.length_bytes, Headers.size]; omega),
        List.take_append_of_le_length (Nat.le_of_eq (by rw [List.length_drop, h.length_bytes,
          hsize]))]
    rw [hslice]
    exact u.verifies_bytes _ _ _

/-! ## Emission -/

namespace Headers

/-- Some payload of two bytes makes the sum a multiple of 65535. -/
theorem exists_checkedSum (u : Udp) (source destination : Net.Address) :
    ∃ payload, payload.length = 2 ∧ u.checkedSum source destination payload % 65535 = 0 := by
  obtain ⟨w, hw⟩ : ∃ w : UInt16,
      (u.checkedSum source destination [0, 0] + w.toNat) % 65535 = 0 := by
    have hlt := Nat.mod_lt (u.checkedSum source destination [0, 0]) (show 0 < 65535 by decide)
    refine ⟨(65535 - u.checkedSum source destination [0, 0] % 65535).toUInt16, ?_⟩
    rw [Nat.toUInt16_eq, UInt16.toNat_ofNat']
    omega
  refine ⟨split16 w, rfl, ?_⟩
  have hzero : wordSum [0, 0] = 0 := by decide
  rw [← hw, Udp.checkedSum, Udp.checkedSum, wordSum_split16, hzero]
  rfl

/-- **Emission**: every datagram that fits its buffer and its length field is written and verifies,
whether its payload is handed over or staged in the buffer.  Its checksum field is 0, as if there
were no checksum, exactly if the sum that the checksum covers is a multiple of 65535.  Between any
two endpoints there is a payload of two bytes for which it is. -/
theorem udp_checksum {h : Headers} {u : Udp} (hu : h.transport = .udp u) :
    (∀ buffer payload, h.size payload ≤ buffer.length → h.size payload ≤ 65535 →
      (h.write buffer payload).IsSummed h u payload) ∧
    (∀ buffer length, udpPayloadOffset + length ≤ buffer.length →
      udpPayloadOffset + length ≤ 65535 →
      (h.writeUdpResponse buffer length).IsSummed h u
        ((buffer.drop udpPayloadOffset).take length)) ∧
    ∃ payload, payload.length = 2 ∧
      u.checkedSum h.network.source h.network.destination payload % 65535 = 0 := by
  refine ⟨fun buffer payload hbuffer hmax => ?_, fun buffer length hbuffer hmax => ?_,
    exists_checkedSum u _ _⟩
  · exact .of_bytes hu hmax (h.write_eq payload hbuffer hmax)
  · have hsize : h.size ((buffer.drop udpPayloadOffset).take length) =
        udpPayloadOffset + length := by
      rw [size, List.length_take, List.length_drop, hu]
      simp only [Transport.headerLength, udpPayloadOffset] at hbuffer ⊢
      omega
    exact .of_bytes hu (hsize ▸ hmax) (hsize ▸ writeUdpResponse_eq hu hbuffer hmax)

/-- An answer of a name server. -/
def nameServer : Headers := udp ⟨⟨8, 8, 8, 8⟩, 53⟩ ⟨⟨10, 0, 0, 2⟩, 40000⟩

/-- An answer whose checksum field is 0, staged in its buffer as well as handed over. -/
theorem udp_checksum_zero :
    nameServer.transport = .udp (Udp.make 53 40000) ∧
      (nameServer.write (List.replicate 30 0) [0x49, 0x53]).result.toOption = some 30 ∧
      word16At (nameServer.write (List.replicate 30 0) [0x49, 0x53]).buffer udpChecksumOffset = 0 ∧
      (nameServer.writeUdpResponse (List.replicate 28 0 ++ [0x49, 0x53]) 2).result.toOption =
        some 30 ∧
      word16At (nameServer.writeUdpResponse (List.replicate 28 0 ++ [0x49, 0x53]) 2).buffer
        udpChecksumOffset = 0 := by
  decide

/-- An answer of three bytes carries a checksum. -/
theorem udp_checksum_of_odd :
    (nameServer.write (List.replicate 40 7) [1, 2, 3]).IsSummed nameServer (Udp.make 53 40000)
        [1, 2, 3] ∧
      word16At (nameServer.write (List.replicate 40 7) [1, 2, 3]).buffer udpChecksumOffset ≠ 0 := by
  have hsummed := (udp_checksum (h := nameServer) (u := Udp.make 53 40000) rfl).1
    (List.replicate 40 7) [1, 2, 3] (by decide) (by decide)
  refine ⟨hsummed, fun hzero => ?_⟩
  exact absurd (hsummed.field_eq_zero_iff.mp hzero) (by decide)

end Headers

end FlowRelay.Packet
