import FlowRelay.Proofs.Packet.Layout

/-!
# FlowRelay.Proofs.Packet.RoundTrip

The codec from end to end.

1. *Making* (`Datagram.make_eq_ok_iff`): a packet is made exactly where it fits its length field,
   and is the packet that was asked for.
2. *Inversion* (`Headers.parse_ok`): the payload of a packet that is read lies behind both of its
   headers and inside its total length.
3. *Normal form* (`Datagram.rewrite_parse`): a packet that was read can be written again, and what
   is written is read as the same packet without its options and its padding.
4. *Round trip* (`Datagram.roundTrip`): all of this for every packet that is made or read.
-/

namespace FlowRelay.Packet

open Bytes

/-! ## Packets that are made -/

namespace Datagram

variable {d d' : Datagram} {h : Headers} {payload : List UInt8}

theorem make_eq (hmax : h.size payload ≤ 65535) : make h payload = .ok (h.packet payload) := by
  have hsize : (List.replicate (h.size payload) (0 : UInt8)).length = h.size payload :=
    List.length_replicate
  have hw := h.write_eq payload (Nat.le_of_eq hsize.symm) hmax
  have hdrop : (List.replicate (h.size payload) (0 : UInt8)).drop (h.size payload) = [] :=
    List.drop_of_length_le (Nat.le_of_eq hsize)
  rw [hdrop, List.append_nil] at hw
  unfold make
  simp only
  rw [← Headers.size, hw]
  simp only [parse_bytes hmax]
  rfl

/-- A packet is made exactly where it fits its length field. -/
theorem make_eq_ok_iff :
    make h payload = .ok d ↔ h.size payload ≤ 65535 ∧ d = h.packet payload := by
  constructor
  · intro hok
    have hmax : h.size payload ≤ 65535 := by
      unfold make at hok
      simp only at hok
      split at hok
      · contradiction
      · next hwrite => exact (Headers.write_ok hwrite).2
    rw [make_eq hmax] at hok
    injection hok with hd
    exact ⟨hmax, hd.symm⟩
  · rintro ⟨hmax, rfl⟩
    exact make_eq hmax

/-- The packet goes from one endpoint to another with a payload, is read back from its own bytes and
verifies. -/
structure Conveys (d : Datagram) (source destination : Net.Endpoint) (payload : List UInt8) :
    Prop where
  source_eq : d.source = source
  destination_eq : d.destination = destination
  payload_eq : d.payload = payload
  parse_bytes : parse d.bytes = .ok d
  checksumsVerify : d.checksumsVerify = true

theorem conveys_packet (hmax : h.size payload ≤ 65535) :
    (h.packet payload).Conveys h.source h.destination payload where
  source_eq := source_packet
  destination_eq := destination_packet
  payload_eq := payload_packet
  parse_bytes := by rw [bytes_packet hmax, parse_bytes hmax]
  checksumsVerify := checksumsVerify_packet hmax

end Datagram

/-! ## Packets that are read -/

/-- The payload of a segment lies behind its header and inside the segment. -/
theorem Headers.parseTransport_ok {number : UInt8} {segment : List UInt8} {t : Transport}
    {span : Span} (hok : parseTransport number segment = .ok (t, span)) :
    t.headerLength ≤ span.start ∧ span.start ≤ span.stop ∧ span.stop ≤ segment.length := by
  unfold parseTransport at hok
  cases hprotocol : Protocol.ofNumber? number with
  | none => simp [hprotocol] at hok
  | some protocol =>
      cases protocol with
      | tcp =>
          simp only [hprotocol] at hok
          grind [Transport.headerLength]
      | udp =>
          simp only [hprotocol] at hok
          grind [Transport.headerLength]

/-- The payload of a packet lies behind both of its headers and inside its total length, which the
bytes suffice for. -/
theorem Headers.parse_ok {bytes : List UInt8} {h : Headers} {span : Span}
    (hok : parse bytes = .ok (h, span)) :
    Ipv4.headerLength + h.transport.headerLength ≤ span.start ∧ span.start ≤ span.stop ∧
      span.stop ≤ h.network.totalLength.toNat ∧ h.network.totalLength.toNat ≤ bytes.length := by
  unfold parse at hok
  simp only at hok
  split at hok
  · contradiction
  split at hok
  · contradiction
  split at hok
  · contradiction
  split at hok
  · contradiction
  split at hok
  · contradiction
  split at hok
  · contradiction
  · next t inner htransport =>
    have hinner := parseTransport_ok htransport
    rw [slice, List.length_take, List.length_drop] at hinner
    injection hok with hok
    injection hok with hh hspan
    subst hh hspan
    simp only
    omega

namespace Datagram

variable {d d' : Datagram} {bytes buffer normal : List UInt8}

/-- A packet is not longer in its minimal form than it was read. -/
theorem size_of_parse (hok : parse bytes = .ok d) : d.headers.size d.payload ≤ 65535 := by
  unfold parse at hok
  cases hheaders : Headers.parse bytes with
  | error e => simp [hheaders, Except.map] at hok
  | ok read =>
      obtain ⟨h, span⟩ := read
      obtain ⟨hfront, hstart, hstop, htotal⟩ := Headers.parse_ok hheaders
      have hmax := h.network.totalLength.toNat_lt
      simp only [hheaders, Except.map, Except.ok.injEq] at hok
      subst hok
      simp only [Headers.size, payload, slice, List.length_take, List.length_drop]
      omega

/-! ## Normal form -/

/-- Write a packet into a buffer with its headers and its payload. -/
def rewrite (d : Datagram) (buffer : List UInt8) : Except WriteError (List UInt8) :=
  let w := d.headers.write buffer d.payload
  w.result.map w.buffer.take

/-- A packet that says the same as another one, in minimal headers, without anything behind its
payload, and with checksums that verify. -/
structure IsNormalFormOf (d' d : Datagram) : Prop where
  source_eq : d'.source = d.source
  destination_eq : d'.destination = d.destination
  protocol_eq : d'.headers.protocol = d.headers.protocol
  /-- The flags, the numbers and the window of a TCP packet are kept. -/
  tcp?_eq : d'.headers.tcp? = d.headers.tcp?
  payload_eq : d'.payload = d.payload
  /-- There are no IPv4 options. -/
  network : Ipv4.lengthAt d'.buffer = Ipv4.headerLength
  /-- There are no TCP options. -/
  start_eq : d'.span.start = Ipv4.headerLength + d'.headers.transport.headerLength
  /-- There is no padding in the packet. -/
  stop_eq : d'.span.stop = d'.length
  /-- There is nothing behind the packet. -/
  length_eq : d'.buffer.length = d'.length
  checksumsVerify : d'.checksumsVerify = true

/-- What is written is the packet in its minimal form. -/
theorem rewrite_eq (hmax : d.headers.size d.payload ≤ 65535)
    (hbuffer : d.headers.size d.payload ≤ buffer.length) :
    d.rewrite buffer = .ok (d.headers.bytes d.payload) := by
  have hlength := d.headers.length_bytes d.payload
  simp only [rewrite, d.headers.write_eq d.payload hbuffer hmax, Except.map]
  rw [List.take_left' hlength]

theorem isNormalFormOf_packet (hmax : d.headers.size d.payload ≤ 65535) :
    (d.headers.packet d.payload).IsNormalFormOf d where
  source_eq := source_packet
  destination_eq := destination_packet
  protocol_eq := Transport.protocol_before _ _
  tcp?_eq := tcp?_packet
  payload_eq := payload_packet
  network := Headers.lengthAt_bytes _ _
  start_eq := by simp [Headers.packet, Headers.before]
  stop_eq := (length_packet hmax).symm
  length_eq := by
    rw [length_packet hmax]
    exact Headers.length_bytes _ _
  checksumsVerify := checksumsVerify_packet hmax

/-- **Normal form**: a packet that was read is written in a form that is read as the same packet,
and that is written as it is. -/
theorem rewrite_parse (hok : parse bytes = .ok d)
    (hbuffer : d.headers.size d.payload ≤ buffer.length) :
    ∃ normal d', d.rewrite buffer = .ok normal ∧ parse normal = .ok d' ∧ d'.IsNormalFormOf d ∧
      ∀ buffer', normal.length ≤ buffer'.length → d'.rewrite buffer' = .ok normal := by
  have hmax := size_of_parse hok
  have hpacket : (d.headers.packet d.payload).headers.size d.payload =
      d.headers.size d.payload := Headers.size_before _ _
  have hagain (buffer' : List UInt8)
      (hbuffer' : (d.headers.bytes d.payload).length ≤ buffer'.length) :
      (d.headers.packet d.payload).rewrite buffer' = .ok (d.headers.bytes d.payload) := by
    rw [Headers.length_bytes] at hbuffer'
    rw [rewrite_eq (by simpa [hpacket] using hmax) (by simpa [hpacket] using hbuffer'),
      payload_packet]
    exact congrArg _ (Headers.bytes_before _ _)
  exact ⟨_, _, rewrite_eq hmax hbuffer, parse_bytes hmax, isNormalFormOf_packet hmax, hagain⟩

/-! ## Round trip -/

/-- **Round trip**: a packet is made exactly where headers and payload fit the length field, with
the fields that were asked for, and its bytes are read back.  A packet that was read is written in
its normal form, whatever options, padding and checksums it came with. -/
theorem roundTrip :
    (∀ source destination flags sequence acknowledgement payload,
      ((∃ d, tcp source destination flags sequence acknowledgement payload = .ok d) ↔
        Headers.tcpPayloadOffset + payload.length ≤ 65535) ∧
      ∀ d, tcp source destination flags sequence acknowledgement payload = .ok d →
        d.Conveys source destination payload ∧
        ∃ t, d.headers.tcp? = some t ∧ t.flags = flags ∧ t.sequence = sequence ∧
          t.acknowledgement = acknowledgement) ∧
    (∀ source destination payload,
      ((∃ d, udp source destination payload = .ok d) ↔
        Headers.udpPayloadOffset + payload.length ≤ 65535) ∧
      ∀ d, udp source destination payload = .ok d →
        d.Conveys source destination payload ∧ d.headers.protocol = .udp) ∧
    ∀ bytes d buffer, parse bytes = .ok d → d.headers.size d.payload ≤ buffer.length →
      ∃ normal d', d.rewrite buffer = .ok normal ∧ parse normal = .ok d' ∧ d'.IsNormalFormOf d ∧
        ∀ buffer', normal.length ≤ buffer'.length → d'.rewrite buffer' = .ok normal := by
  refine ⟨?tcp, ?udp, fun bytes d buffer => rewrite_parse⟩
  case tcp =>
    intro source destination flags sequence acknowledgement payload
    constructor
    · simp only [tcp, make_eq_ok_iff, exists_and_left, exists_eq, and_true]
      exact Iff.rfl
    · intro d hok
      obtain ⟨hmax, rfl⟩ := make_eq_ok_iff.mp hok
      exact ⟨conveys_packet hmax, _, tcp?_packet, rfl, rfl, rfl⟩
  case udp =>
    intro source destination payload
    constructor
    · simp only [udp, make_eq_ok_iff, exists_and_left, exists_eq, and_true]
      exact Iff.rfl
    · intro d hok
      obtain ⟨hmax, rfl⟩ := make_eq_ok_iff.mp hok
      exact ⟨conveys_packet hmax, rfl⟩

/-- A segment with options in both headers and stale checksums, followed by padding. -/
def optioned : List UInt8 :=
  [0x46, 0, 0, 50, 0, 1, 0x40, 0, 64, 6, 0xAB, 0xCD, 10, 0, 0, 1, 10, 0, 0, 2, 1, 1, 1, 1] ++
    [0xC0, 1, 0, 80, 0, 0, 0, 7, 0, 0, 0, 9, 0x60, 0x18, 0x20, 0, 0x12, 0x34, 0, 0, 2, 4, 5, 180] ++
    [104, 105] ++ [0, 0, 0]

theorem roundTrip_of_options :
    ∃ d normal d', parse optioned = .ok d ∧ d.headers.size d.payload ≤ 64 ∧
      d.rewrite (List.replicate 64 0) = .ok normal ∧ parse normal = .ok d' ∧
      d'.IsNormalFormOf d ∧ d'.rewrite normal = .ok normal := by
  have hparse : ∃ d, parse optioned = .ok d ∧ d.headers.size d.payload ≤ 64 := ⟨_, rfl, by decide⟩
  obtain ⟨d, hd, hsize⟩ := hparse
  obtain ⟨normal, d', hw, hd', hnormal, hagain⟩ :=
    roundTrip.2.2 optioned d (List.replicate 64 0) hd hsize
  exact ⟨d, normal, d', hd, hsize, hw, hd', hnormal, hagain normal (Nat.le_refl _)⟩

end Datagram

end FlowRelay.Packet
