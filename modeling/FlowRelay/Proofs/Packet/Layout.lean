import FlowRelay.Proofs.Packet.Checksum

/-!
# FlowRelay.Proofs.Packet.Layout

How a packet that is written from here is laid out, and how it is read.

1. *Headers* (`Ipv4.ofBytes_bytes`, `Tcp.ofBytes_bytes`, `Udp.ofBytes_bytes`): a header is read back
   from its bytes, whatever follows them.
2. *Writing* (`Headers.writeBoth_eq`): a packet is both headers in front of its payload.
3. *Reading* (`Headers.parse_bytes`): a packet is read with the headers that it was written with.
4. *Datagrams* (`Datagram.parse_bytes`, `Datagram.checksumsVerify_packet`): so it is read as the
   datagram with these headers and this payload, whose checksums verify.
-/

namespace FlowRelay.Packet

open Bytes

/-! ## Headers -/

/-- Behind as many bytes as its offset counts, a word is read from what follows. -/
theorem word16At_append {xs : List UInt8} {n : Nat} (h : xs.length = n) (ys : List UInt8)
    (i : Nat) : word16At (xs ++ ys) (n + i) = word16At ys i := by
  subst h
  simp only [word16At, byteAt, List.getD_eq_getElem?_getD, Nat.add_assoc]
  rw [List.getElem?_append_right (by omega), List.getElem?_append_right (by omega),
    Nat.add_sub_cancel_left, Nat.add_sub_cancel_left]

@[simp] theorem Ipv4.length_bytes (h : Ipv4) (length : UInt16) :
    (h.bytes length).length = headerLength := by
  simp [bytes, bytesWith, Net.Address.bytes, headerLength]

@[simp] theorem Tcp.length_bytes (h : Tcp) (source destination : Net.Address)
    (payload : List UInt8) : (h.bytes source destination payload).length = headerLength := by
  simp [bytes, bytesWith, headerLength]

@[simp] theorem Udp.length_bytes (h : Udp) (source destination : Net.Address)
    (payload : List UInt8) : (h.bytes source destination payload).length = headerLength := by
  simp [bytes, bytesWith, headerLength]

/-- An IPv4 header is read back, but for the upper half of its version. -/
theorem Ipv4.ofBytes_bytes (h : Ipv4) (length : UInt16) (rest : List UInt8) :
    Ipv4.ofBytes (h.bytes length ++ rest) =
      { h with version := (h.version <<< 4 ||| 5) >>> 4, totalLength := length } := by
  simp [ofBytes, bytes, bytesWith, split16, word16At, byteAt, addressAt, Net.Address.bytes,
    join16_split]

/-- The length of the IPv4 header is read back as five words. -/
theorem Ipv4.lengthAt_bytes (h : Ipv4) (length : UInt16) (rest : List UInt8) :
    Ipv4.lengthAt (h.bytes length ++ rest) = ((h.version <<< 4 ||| 5) &&& 0x0F).toNat * 4 := by
  simp [lengthAt, bytes, bytesWith, byteAt]

/-- A TCP header is read back. -/
theorem Tcp.ofBytes_bytes (h : Tcp) (source destination : Net.Address)
    (payload rest : List UInt8) : Tcp.ofBytes (h.bytes source destination payload ++ rest) = h := by
  simp [ofBytes, bytes, bytesWith, split16, split32, word16At, word32At, byteAt, join16_split,
    join32_split]

/-- The length of the TCP header is read back. -/
theorem Tcp.lengthAt_bytes (h : Tcp) (source destination : Net.Address)
    (payload rest : List UInt8) :
    Tcp.lengthAt (h.bytes source destination payload ++ rest) = headerLength := by
  simp [lengthAt, bytes, bytesWith, split16, split32, byteAt, headerLength]

/-- A UDP header is read back with the length that was filled in. -/
theorem Udp.ofBytes_bytes (h : Udp) (source destination : Net.Address)
    (payload rest : List UInt8) :
    Udp.ofBytes (h.bytes source destination payload ++ rest) =
      { h with length := (headerLength + payload.length).toUInt16 } := by
  simp only [bytes]
  generalize (headerLength + payload.length).toUInt16 = length
  simp [ofBytes, bytesWith, split16, word16At, byteAt, join16_split]

/-! ## Writing headers -/

/-- What stands behind an IPv4 header is left as it is. -/
theorem Ipv4.write_eq {buffer : List UInt8} {n : Nat} (h : Ipv4) (hmin : headerLength ≤ n)
    (hbuffer : n ≤ buffer.length) (hmax : n ≤ 65535) :
    h.write buffer n = ⟨h.bytes n.toUInt16 ++ buffer.drop headerLength, .ok headerLength⟩ := by
  unfold write
  rw [if_neg (by omega), if_neg (by omega), overwrite, length_bytes, Nat.zero_add, List.take_zero,
    List.nil_append]

/-- What stands behind a TCP header is left as it is, and is summed as its payload. -/
theorem Tcp.write_eq {buffer : List UInt8} {n : Nat} (h : Tcp) (source destination : Net.Address)
    (hmin : headerLength ≤ n) (hbuffer : n ≤ buffer.length) :
    h.write source destination buffer n =
      ⟨h.bytes source destination (slice buffer headerLength n) ++ buffer.drop headerLength,
        .ok headerLength⟩ := by
  unfold write
  rw [if_neg (by omega)]
  simp only
  rw [overwrite, length_bytes, Nat.zero_add, List.take_zero, List.nil_append]

/-- What stands behind a UDP header is left as it is, and is summed as its payload. -/
theorem Udp.write_eq {buffer : List UInt8} {n : Nat} (h : Udp) (source destination : Net.Address)
    (hmin : headerLength ≤ n) (hbuffer : n ≤ buffer.length) (hmax : n ≤ 65535) :
    h.write source destination buffer n =
      ⟨h.bytes source destination (slice buffer headerLength n) ++ buffer.drop headerLength,
        .ok headerLength⟩ := by
  unfold write
  rw [if_neg (by omega), if_neg (by omega)]
  simp only
  rw [overwrite, length_bytes, Nat.zero_add, List.take_zero, List.nil_append]

namespace Transport

variable {t : Transport}

/-- The bytes of the header in front of a payload. -/
def bytes (source destination : Net.Address) (payload : List UInt8) : Transport → List UInt8
  | .tcp h => h.bytes source destination payload
  | .udp h => h.bytes source destination payload

/-- The header as it is read in front of a payload: a UDP header states the length. -/
def before (t : Transport) (payload : List UInt8) : Transport :=
  match t with
  | .tcp h => .tcp h
  | .udp h => .udp { h with length := (Udp.headerLength + payload.length).toUInt16 }

@[simp] theorem length_bytes (t : Transport) (source destination : Net.Address)
    (payload : List UInt8) : (t.bytes source destination payload).length = t.headerLength := by
  cases t <;> simp [bytes, headerLength]

@[simp] theorem protocol_before (t : Transport) (payload : List UInt8) :
    (t.before payload).protocol = t.protocol := by
  cases t <;> rfl

@[simp] theorem headerLength_before (t : Transport) (payload : List UInt8) :
    (t.before payload).headerLength = t.headerLength := by
  cases t <;> rfl

@[simp] theorem bytes_before (t : Transport) (source destination : Net.Address)
    (payload : List UInt8) :
    (t.before payload).bytes source destination payload = t.bytes source destination payload := by
  cases t <;> rfl

/-- What stands behind a transport header is left as it is, and is summed as its payload. -/
theorem write_eq {buffer : List UInt8} {n : Nat} (t : Transport) (source destination : Net.Address)
    (hmin : t.headerLength ≤ n) (hbuffer : n ≤ buffer.length) (hmax : n ≤ 65535) :
    t.write source destination buffer n =
      ⟨t.bytes source destination (slice buffer t.headerLength n) ++ buffer.drop t.headerLength,
        .ok t.headerLength⟩ := by
  cases t with
  | tcp h => exact h.write_eq source destination hmin hbuffer
  | udp h => exact h.write_eq source destination hmin hbuffer hmax

/-- A payload is staged behind the header before the header is written. -/
theorem writeWithPayload_eq {buffer payload : List UInt8} (t : Transport)
    (source destination : Net.Address) (hbuffer : t.headerLength + payload.length ≤ buffer.length)
    (hmax : t.headerLength + payload.length ≤ 65535) :
    writeWithPayload t.headerLength (fun b n => t.write source destination b n) buffer payload
        (t.headerLength + payload.length) =
      ⟨t.bytes source destination payload ++
          (payload ++ buffer.drop (t.headerLength + payload.length)),
        .ok (t.headerLength + payload.length)⟩ := by
  have hbehind := drop_overwrite hbuffer
  have hslice : slice (overwrite buffer t.headerLength payload) t.headerLength
      (t.headerLength + payload.length) = payload := by
    rw [slice, hbehind, Nat.add_sub_cancel_left, List.take_left]
  unfold writeWithPayload
  simp only
  rw [if_neg (by omega), t.write_eq source destination (Nat.le_add_right _ _)
    (by rw [length_overwrite hbuffer]; exact hbuffer) hmax, hslice, hbehind]
  rfl

/-- The checksum of a segment verifies. -/
theorem verifies_bytes (t : Transport) (source destination : Net.Address) (payload : List UInt8) :
    Verifies (pseudoSum source destination t.protocol.number (t.headerLength + payload.length) +
      wordSum (t.bytes source destination payload ++ payload)) := by
  cases t with
  | tcp h => exact h.verifies_bytes source destination payload
  | udp h => exact h.verifies_bytes source destination payload

end Transport

namespace Headers

variable {h : Headers} {buffer payload : List UInt8} {n : Nat}

/-! ## Packets -/

/-- The length of a packet with these headers in their minimal form. -/
def size (h : Headers) (payload : List UInt8) : Nat :=
  Ipv4.headerLength + h.transport.headerLength + payload.length

/-- A packet: both headers in their minimal form in front of a payload. -/
def bytes (h : Headers) (payload : List UInt8) : List UInt8 :=
  h.freshNetwork.bytes (h.size payload).toUInt16 ++
    (h.transport.bytes h.network.source h.network.destination payload ++ payload)

/-- The headers as they are read in front of a payload. -/
def before (h : Headers) (payload : List UInt8) : Headers :=
  { network := { h.freshNetwork with totalLength := (h.size payload).toUInt16 }
    transport := h.transport.before payload }

@[simp] theorem length_bytes (h : Headers) (payload : List UInt8) :
    (h.bytes payload).length = h.size payload := by
  simp only [bytes, size, List.length_append, Ipv4.length_bytes, Transport.length_bytes]
  omega

@[simp] theorem size_before (h : Headers) (payload : List UInt8) :
    (h.before payload).size payload = h.size payload := by
  simp [size, before]

/-- Writing a packet again changes nothing. -/
theorem bytes_before (h : Headers) (payload : List UInt8) :
    (h.before payload).bytes payload = h.bytes payload := by
  have hfresh : (h.before payload).freshNetwork = h.freshNetwork := by
    simp [freshNetwork, before, protocol, Ipv4.make]
  rw [bytes, bytes, hfresh, size_before]
  simp [before, freshNetwork, Ipv4.make]

/-! ## Writing packets -/

/-- A packet is an IPv4 header in front of what was written behind it. -/
theorem writeBoth_eq {network : Ipv4} {transport : List UInt8 → Nat → Written}
    {segment : List UInt8} {k : Nat}
    (htransport : transport (buffer.drop Ipv4.headerLength) (n - Ipv4.headerLength) =
      ⟨segment, .ok k⟩)
    (hsegment : segment.length = buffer.length - Ipv4.headerLength)
    (hmin : Ipv4.headerLength ≤ n) (hbuffer : n ≤ buffer.length) (hmax : n ≤ 65535) :
    writeBoth network transport buffer n = ⟨network.bytes n.toUInt16 ++ segment, .ok n⟩ := by
  have hfront : (buffer.take Ipv4.headerLength).length = Ipv4.headerLength := by
    rw [List.length_take]
    omega
  unfold writeBoth Written.behind
  simp only [htransport, Written.andThen]
  rw [Ipv4.write_eq _ hmin (by rw [List.length_append, hfront, hsegment]; omega) hmax,
    List.drop_left' hfront]

/-- A packet that does not fit its length field is not written. -/
theorem writeBoth_ok {network : Ipv4} {transport : List UInt8 → Nat → Written} {k : Nat}
    (hok : (writeBoth network transport buffer n).result = .ok k) : n ≤ 65535 := by
  refine Nat.le_of_not_lt fun hmax => ?_
  unfold writeBoth Written.andThen at hok
  split at hok
  · simp only [Ipv4.write, if_pos hmax, Written.refuse] at hok
    contradiction
  · next x hx => exact absurd (hx.symm.trans hok) nofun

/-- **Writing**: what is written is the packet, and the buffer behind it is left as it is. -/
theorem write_eq (h : Headers) (payload : List UInt8) (hbuffer : h.size payload ≤ buffer.length)
    (hmax : h.size payload ≤ 65535) :
    h.write buffer payload =
      ⟨h.bytes payload ++ buffer.drop (h.size payload), .ok (h.size payload)⟩ := by
  have hsize : h.size payload =
      Ipv4.headerLength + (h.transport.headerLength + payload.length) := by
    rw [size, Nat.add_assoc]
  have htransport := h.transport.writeWithPayload_eq h.network.source h.network.destination
    (show h.transport.headerLength + payload.length ≤ (buffer.drop Ipv4.headerLength).length by
      rw [List.length_drop]; omega) (by omega)
  change (if buffer.length < h.size payload then _ else _) = _
  rw [if_neg (by omega)]
  refine (writeBoth_eq (by rw [hsize, Nat.add_sub_cancel_left]; exact htransport) ?_ (by omega)
    hbuffer hmax).trans ?_
  · simp only [List.length_append, Transport.length_bytes, List.length_drop]
    omega
  · rw [bytes, List.drop_drop, ← hsize, List.append_assoc, List.append_assoc]

/-- Only what fits the buffer and the length field is written. -/
theorem write_ok {k : Nat} (hok : (h.write buffer payload).result = .ok k) :
    h.size payload ≤ buffer.length ∧ h.size payload ≤ 65535 := by
  change (if buffer.length < h.size payload then _ else _ : Written).result = _ at hok
  by_cases hbuffer : buffer.length < h.size payload
  · rw [if_pos hbuffer] at hok
    contradiction
  · rw [if_neg hbuffer] at hok
    exact ⟨by omega, writeBoth_ok hok⟩

/-! ## Reading packets -/

/-- A segment that was written is read with its header, its payload right behind it. -/
theorem parseTransport_bytes (t : Transport) (source destination : Net.Address)
    (payload : List UInt8) (hmax : t.headerLength + payload.length ≤ 65535) :
    parseTransport t.protocol.number (t.bytes source destination payload ++ payload) =
      .ok (t.before payload, ⟨t.headerLength, t.headerLength + payload.length⟩) := by
  unfold parseTransport
  cases t with
  | tcp h =>
      simp only [Transport.protocol, Protocol.number, Protocol.ofNumber?, if_true,
        Transport.bytes, List.length_append, Tcp.length_bytes, Tcp.lengthAt_bytes,
        Tcp.ofBytes_bytes]
      rw [if_neg (by omega), if_neg (by omega)]
      rfl
  | udp h =>
      have hlength : (Udp.headerLength + payload.length).toUInt16.toNat =
          Udp.headerLength + payload.length :=
        UInt16.toNat_ofNat_of_lt' (by
          simp only [Transport.headerLength, UInt16.size] at hmax ⊢
          omega)
      simp only [Transport.protocol, Protocol.number, Protocol.ofNumber?, Transport.bytes,
        List.length_append, Udp.length_bytes, Udp.ofBytes_bytes, hlength]
      rw [if_neg (by decide), if_pos trivial]
      simp only
      rw [if_neg (by omega), if_neg (by omega)]
      rfl

theorem lengthAt_bytes (h : Headers) (payload : List UInt8) :
    Ipv4.lengthAt (h.bytes payload) = Ipv4.headerLength := by
  have hversion : h.freshNetwork.version = 4 := rfl
  rw [bytes, Ipv4.lengthAt_bytes, hversion]
  decide

/-- Behind the IPv4 header stands the segment. -/
theorem slice_bytes (h : Headers) (payload : List UInt8) :
    slice (h.bytes payload) Ipv4.headerLength (h.size payload) =
      h.transport.bytes h.network.source h.network.destination payload ++ payload := by
  rw [slice, bytes, List.drop_left' (Ipv4.length_bytes _ _)]
  apply List.take_of_length_le
  rw [List.length_append, Transport.length_bytes, size]
  omega

/-- **Reading**: a packet that was written is read with the headers that it was written with. -/
theorem parse_bytes (h : Headers) (payload : List UInt8) (hmax : h.size payload ≤ 65535) :
    parse (h.bytes payload) =
      .ok (h.before payload,
        ⟨Ipv4.headerLength + h.transport.headerLength, h.size payload⟩) := by
  have hversion : h.freshNetwork.version = 4 := rfl
  have hfragment : h.freshNetwork.fragment = 0 := rfl
  have hprotocol : h.freshNetwork.protocol = h.transport.protocol.number := rfl
  have htotal : (h.size payload).toUInt16.toNat = h.size payload :=
    UInt16.toNat_ofNat_of_lt' (by simp only [UInt16.size]; omega)
  have hsize : h.size payload =
      Ipv4.headerLength + (h.transport.headerLength + payload.length) := by
    rw [size, Nat.add_assoc]
  have hnetwork : Ipv4.ofBytes (h.bytes payload) = (h.before payload).network := by
    have hread : ((4 : UInt8) <<< 4 ||| 5) >>> 4 = 4 := by decide
    rw [bytes, Ipv4.ofBytes_bytes, hversion, hread]
    rfl
  unfold parse
  rw [length_bytes, hnetwork, h.lengthAt_bytes]
  simp only [before, htotal, hversion]
  rw [if_neg (by omega), if_neg (by decide), if_neg (by omega), if_neg (by omega),
    if_neg (by simp [Ipv4.isFragment, Ipv4.moreFragments, Ipv4.fragmentOffset, hfragment]),
    hprotocol, h.slice_bytes, parseTransport_bytes _ _ _ _ (by omega)]
  simp only [hsize]

/-- The datagram that a packet is read as. -/
def packet (h : Headers) (payload : List UInt8) : Datagram :=
  { buffer := h.bytes payload
    headers := h.before payload
    span := ⟨Ipv4.headerLength + h.transport.headerLength, h.size payload⟩ }

end Headers

/-! ## Datagrams -/

namespace Datagram

variable {h : Headers} {payload : List UInt8}

/-- A packet is parsed as it was built. -/
theorem parse_bytes (hmax : h.size payload ≤ 65535) :
    parse (h.bytes payload) = .ok (h.packet payload) := by
  rw [parse, Headers.parse_bytes h payload hmax]
  rfl

@[simp] theorem source_packet : (h.packet payload).source = h.source := by
  rw [source, Headers.source, Headers.source]
  cases ht : h.transport <;>
    simp [Headers.packet, Headers.before, ht, Transport.before, Transport.sourcePort,
      Headers.freshNetwork, Ipv4.make]

@[simp] theorem destination_packet : (h.packet payload).destination = h.destination := by
  rw [destination, Headers.destination, Headers.destination]
  cases ht : h.transport <;>
    simp [Headers.packet, Headers.before, ht, Transport.before, Transport.destinationPort,
      Headers.freshNetwork, Ipv4.make]

@[simp] theorem tcp?_packet : (h.packet payload).headers.tcp? = h.tcp? := by
  rw [Headers.tcp?, Headers.tcp?]
  cases ht : h.transport <;> simp [Headers.packet, Headers.before, ht, Transport.before]

/-- Both headers in front of a payload are followed by the payload. -/
@[simp] theorem payload_packet : (h.packet payload).payload = payload := by
  have hfront : (h.freshNetwork.bytes (h.size payload).toUInt16 ++
      h.transport.bytes h.network.source h.network.destination payload).length =
      Ipv4.headerLength + h.transport.headerLength := by
    rw [List.length_append, Ipv4.length_bytes, Transport.length_bytes]
  simp only [Datagram.payload, Headers.packet, Headers.bytes]
  rw [slice, ← List.append_assoc, List.drop_left' hfront]
  apply List.take_of_length_le
  rw [Headers.size]
  omega

/-- The length of a packet is that of its headers and its payload. -/
theorem length_packet (hmax : h.size payload ≤ 65535) :
    (h.packet payload).length = h.size payload :=
  UInt16.toNat_ofNat_of_lt' (by simp only [UInt16.size]; omega)

/-- Nothing stands behind a packet that was written. -/
theorem bytes_packet (hmax : h.size payload ≤ 65535) :
    (h.packet payload).bytes = h.bytes payload := by
  rw [bytes, length_packet hmax, ← Headers.length_bytes h payload]
  exact List.take_length

/-- The checksums of a packet that was written verify. -/
theorem checksumsVerify_packet (hmax : h.size payload ≤ 65535) :
    (h.packet payload).checksumsVerify = true := by
  have hnetwork : (h.bytes payload).take Ipv4.headerLength =
      h.freshNetwork.bytes (h.size payload).toUInt16 := by
    rw [Headers.bytes, List.take_left' (Ipv4.length_bytes _ _)]
  have hlength : (h.transport.bytes h.network.source h.network.destination payload ++
      payload).length = h.transport.headerLength + payload.length := by
    rw [List.length_append, Transport.length_bytes]
  have hprotocol : (h.packet payload).headers.protocol = h.transport.protocol := by
    simp [Headers.packet, Headers.before, Headers.protocol]
  have hbuffer : (h.packet payload).buffer = h.bytes payload := rfl
  unfold checksumsVerify
  simp only [hbuffer, h.lengthAt_bytes, hnetwork, length_packet hmax, h.slice_bytes, hlength,
    hprotocol, Bool.and_eq_true, decide_eq_true_eq]
  constructor
  · exact Ipv4.verifies_bytes _ _
  · exact Transport.verifies_bytes _ _ _ _

end Datagram

end FlowRelay.Packet
