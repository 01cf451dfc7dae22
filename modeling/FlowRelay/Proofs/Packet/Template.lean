import FlowRelay.Fault
import FlowRelay.Proofs.Packet.Answer
import FlowRelay.Proofs.Packet.RoundTrip

/-!
# FlowRelay.Proofs.Packet.Template

Responses that are built from the swapped headers of a datagram.

1. *Writing* (`Headers.exists_writeTcpResponse_iff`, `Headers.exists_writeUdpResponse_iff`): a
   response is written exactly where it fits, with its payload behind its headers.
2. *Responses* (`Written.Responds.of_bytes`): a packet in front of what was behind it in the buffer
   goes back the way the datagram came, and nothing else in the buffer has changed.
3. *Templates* (`Datagram.responds_swap`): so a datagram serves as the template of the responses of
   its protocol wherever these fit, and of no others.
-/

namespace FlowRelay.Packet

open Bytes

/-! ## Writing -/

namespace Headers

variable {h : Headers}

/-- Behind both headers of a packet stands its payload. -/
theorem drop_bytes (h : Headers) (payload : List UInt8) :
    (h.bytes payload).drop (Ipv4.headerLength + h.transport.headerLength) = payload := by
  rw [bytes, ← List.append_assoc, List.drop_left']
  rw [List.length_append, Ipv4.length_bytes, Transport.length_bytes]

/-- A TCP response is written exactly where it fits its buffer and its length field. -/
theorem exists_writeTcpResponse_iff {t : Tcp} (ht : h.transport = .tcp t) (buffer : List UInt8)
    (flags : UInt8) (sequence acknowledgement : UInt32) (length : Nat) :
    (∃ n, (h.writeTcpResponse buffer flags sequence acknowledgement length).result = .ok n) ↔
      tcpPayloadOffset + length ≤ buffer.length ∧ tcpPayloadOffset + length ≤ 65535 := by
  constructor
  · rintro ⟨n, hok⟩
    exact (writeTcpResponse_ok hok).2
  · rintro ⟨hbuffer, hmax⟩
    exact ⟨_, by rw [writeTcpResponse_eq_bytes ht hbuffer hmax]⟩

/-- A UDP response is written exactly where it fits its buffer and its length field. -/
theorem exists_writeUdpResponse_iff {u : Udp} (hu : h.transport = .udp u) (buffer : List UInt8)
    (length : Nat) :
    (∃ n, (h.writeUdpResponse buffer length).result = .ok n) ↔
      udpPayloadOffset + length ≤ buffer.length ∧ udpPayloadOffset + length ≤ 65535 := by
  constructor
  · rintro ⟨n, hok⟩
    exact (writeUdpResponse_ok hok).2
  · rintro ⟨hbuffer, hmax⟩
    exact ⟨_, by rw [writeUdpResponse_eq hu hbuffer hmax]⟩

end Headers

/-! ## Responses -/

/-- What was written is a response to a datagram: a packet that goes back the way the datagram came
and carries the payload that was staged at an offset of the buffer.  The payload and what stands
behind the packet are left as they were. -/
structure Written.Responds (w : Written) (d r : Datagram) (buffer : List UInt8)
    (offset length : Nat) : Prop where
  result_eq : w.result = .ok (offset + length)
  length_eq : w.buffer.length = buffer.length
  drop_eq : w.buffer.drop offset = buffer.drop offset
  parse_take : Datagram.parse (w.buffer.take (offset + length)) = .ok r
  source_eq : r.source = d.destination
  destination_eq : r.destination = d.source
  payload_eq : r.payload = slice buffer offset (offset + length)
  checksumsVerify : r.checksumsVerify = true

/-- **Responses**: a packet with the addressing of an answer, in front of what was behind it in the
buffer, is a response. -/
theorem Written.Responds.of_bytes {w : Written} {h : Headers} {d : Datagram} {buffer : List UInt8}
    {offset length : Nat}
    (hw : w = ⟨h.bytes ((buffer.drop offset).take length) ++ buffer.drop (offset + length),
      .ok (offset + length)⟩)
    (hoffset : Ipv4.headerLength + h.transport.headerLength = offset)
    (hbuffer : offset + length ≤ buffer.length) (hmax : offset + length ≤ 65535)
    (hsource : h.source = d.destination) (hdestination : h.destination = d.source) :
    w.Responds d (h.packet ((buffer.drop offset).take length)) buffer offset length := by
  have hlength : ((buffer.drop offset).take length).length = length := by
    rw [List.length_take, List.length_drop]
    omega
  have hsize : h.size ((buffer.drop offset).take length) = offset + length := by
    rw [Headers.size, hoffset, hlength]
  have hbytes : (h.bytes ((buffer.drop offset).take length)).length = offset + length := by
    rw [Headers.length_bytes, hsize]
  subst hw
  constructor
  case result_eq => rfl
  case length_eq =>
    rw [List.length_append, hbytes, List.length_drop]
    omega
  case drop_eq =>
    have hdrop := h.drop_bytes ((buffer.drop offset).take length)
    rw [hoffset] at hdrop
    rw [List.drop_append_of_le_length (by omega), hdrop, ← List.drop_drop, List.take_append_drop]
  case parse_take =>
    rw [List.take_left' hbytes]
    exact Datagram.parse_bytes (hsize ▸ hmax)
  case source_eq => rw [Datagram.source_packet, hsource]
  case destination_eq => rw [Datagram.destination_packet, hdestination]
  case payload_eq => rw [Datagram.payload_packet, slice, Nat.add_sub_cancel_left]
  case checksumsVerify => exact Datagram.checksumsVerify_packet (hsize ▸ hmax)

/-! ## Templates -/

namespace Headers

variable {h : Headers} {d : Datagram} {buffer : List UInt8} {length : Nat}

/-- A segment that fits carries the control fields that were asked for, and the full window. -/
theorem responds_writeTcpResponse {t : Tcp} (ht : h.transport = .tcp t)
    (hbuffer : tcpPayloadOffset + length ≤ buffer.length)
    (hmax : tcpPayloadOffset + length ≤ 65535) (hsource : h.source = d.destination)
    (hdestination : h.destination = d.source) (flags : UInt8)
    (sequence acknowledgement : UInt32) :
    ∃ r, (h.writeTcpResponse buffer flags sequence acknowledgement length).Responds d r buffer
        tcpPayloadOffset length ∧
      r.headers.tcp? = some (t.control flags sequence acknowledgement) := by
  refine ⟨_, .of_bytes (writeTcpResponse_eq_bytes ht hbuffer hmax flags sequence acknowledgement)
    rfl hbuffer hmax ?_ ?_, Datagram.tcp?_packet⟩
  · rw [source_withTcp ht, hsource]
  · rw [destination_withTcp ht, hdestination]

/-- A datagram that fits states its length. -/
theorem responds_writeUdpResponse {u : Udp} (hu : h.transport = .udp u)
    (hbuffer : udpPayloadOffset + length ≤ buffer.length)
    (hmax : udpPayloadOffset + length ≤ 65535) (hsource : h.source = d.destination)
    (hdestination : h.destination = d.source) :
    ∃ r u, (h.writeUdpResponse buffer length).Responds d r buffer udpPayloadOffset length ∧
      r.headers.udp? = some u ∧ u.length.toNat = Udp.headerLength + length := by
  have hoffset : Ipv4.headerLength + h.transport.headerLength = udpPayloadOffset := by
    rw [hu]
    rfl
  have hlength : ((buffer.drop udpPayloadOffset).take length).length = length := by
    rw [List.length_take, List.length_drop]
    omega
  refine ⟨_, { u with length := (Udp.headerLength + length).toUInt16 },
    .of_bytes (writeUdpResponse_eq hu hbuffer hmax) hoffset hbuffer hmax hsource hdestination,
    ?_, ?_⟩
  · simp only [udp?, packet, before, Transport.before, hu, hlength]
  · exact UInt16.toNat_ofNat_of_lt' (by simp only [udpPayloadOffset, UInt16.size] at hmax ⊢; omega)

end Headers

namespace Datagram

/-- **Templates**: with the swapped headers of a datagram, a response of its protocol is written
exactly where headers and payload fit the buffer and the length field.  It goes back the way the
datagram came, whatever the datagram carried besides its addressing and whatever was in the buffer,
and leaves the staged payload and the rest of the buffer alone.  A response of the other protocol is
refused and leaves the whole buffer alone. -/
theorem responds_swap (d : Datagram) (buffer : List UInt8) (length : Nat) :
    (d.headers.protocol = .tcp →
      (∀ flags sequence acknowledgement,
        ((∃ n, (d.headers.swap.writeTcpResponse buffer flags sequence acknowledgement
            length).result = .ok n) ↔
          Headers.tcpPayloadOffset + length ≤ buffer.length ∧
            Headers.tcpPayloadOffset + length ≤ 65535) ∧
        ∀ n, (d.headers.swap.writeTcpResponse buffer flags sequence acknowledgement
            length).result = .ok n →
          ∃ r t, (d.headers.swap.writeTcpResponse buffer flags sequence acknowledgement
              length).Responds d r buffer Headers.tcpPayloadOffset length ∧
            r.headers.tcp? = some t ∧ t.flags = flags ∧ t.sequence = sequence ∧
            t.acknowledgement = acknowledgement ∧ t.window = 65535) ∧
      ∃ e, d.headers.swap.writeUdpResponse buffer length = .refuse buffer e ∧
        Fault.writeKind e = .invalidInput) ∧
    (d.headers.protocol = .udp →
      (((∃ n, (d.headers.swap.writeUdpResponse buffer length).result = .ok n) ↔
          Headers.udpPayloadOffset + length ≤ buffer.length ∧
            Headers.udpPayloadOffset + length ≤ 65535) ∧
        ∀ n, (d.headers.swap.writeUdpResponse buffer length).result = .ok n →
          ∃ r u, (d.headers.swap.writeUdpResponse buffer length).Responds d r buffer
              Headers.udpPayloadOffset length ∧
            r.headers.udp? = some u ∧ u.length.toNat = Udp.headerLength + length) ∧
      ∀ flags sequence acknowledgement, ∃ e,
        d.headers.swap.writeTcpResponse buffer flags sequence acknowledgement length =
          .refuse buffer e ∧
        Fault.writeKind e = .invalidInput) := by
  have hsource : d.headers.swap.source = d.destination := d.headers.source_swap
  have hdestination : d.headers.swap.destination = d.source := d.headers.destination_swap
  constructor
  case left =>
    intro hprotocol
    obtain ⟨_, -, ht⟩ := Headers.exists_tcp_swap hprotocol
    refine ⟨fun flags sequence acknowledgement => ?_, .notUdp, ?_, rfl⟩
    · have hiff := Headers.exists_writeTcpResponse_iff ht buffer flags sequence acknowledgement
        length
      refine ⟨hiff, fun n hok => ?_⟩
      obtain ⟨hbuffer, hmax⟩ := hiff.mp ⟨n, hok⟩
      obtain ⟨r, hresponds, htcp⟩ := Headers.responds_writeTcpResponse ht hbuffer hmax hsource
        hdestination flags sequence acknowledgement
      exact ⟨r, _, hresponds, htcp, rfl, rfl, rfl, rfl⟩
    · simp only [Headers.writeUdpResponse, ht]
  case right =>
    intro hprotocol
    obtain ⟨_, -, hu⟩ := Headers.exists_udp_swap hprotocol
    refine ⟨?_, fun flags sequence acknowledgement => ⟨.notTcp, ?_, rfl⟩⟩
    · have hiff := Headers.exists_writeUdpResponse_iff hu buffer length
      refine ⟨hiff, fun n hok => ?_⟩
      obtain ⟨hbuffer, hmax⟩ := hiff.mp ⟨n, hok⟩
      exact Headers.responds_writeUdpResponse hu hbuffer hmax hsource hdestination
    · simp only [Headers.writeTcpResponse, hu]

/-- A datagram with padding behind its payload. -/
def padded : List UInt8 :=
  [0x45, 0, 0, 32, 0, 1, 0, 0, 64, 17, 0xAB, 0xCD, 10, 0, 0, 1, 10, 0, 0, 2] ++
    [0xC0, 1, 0, 53, 0, 10, 0x12, 0x34] ++ [104, 105] ++ [0, 0]

/-- A segment with options and a datagram with padding, each answered with five bytes out of a
buffer that holds other bytes everywhere else. -/
theorem responds_of_samples :
    (∃ d r t, parse optioned = .ok d ∧
      (d.headers.swap.writeTcpResponse (List.replicate 50 7) 0x18 5000 101 5).Responds d r
        (List.replicate 50 7) 40 5 ∧ r.headers.tcp? = some t ∧ t.sequence = 5000) ∧
    ∃ d r u, parse padded = .ok d ∧
      (d.headers.swap.writeUdpResponse (List.replicate 50 7) 5).Responds d r
        (List.replicate 50 7) 28 5 ∧ r.headers.udp? = some u ∧ u.length.toNat = 13 := by
  constructor
  · obtain ⟨d, hparse, hprotocol⟩ : ∃ d, parse optioned = .ok d ∧ d.headers.protocol = .tcp :=
      ⟨_, rfl, rfl⟩
    obtain ⟨hiff, hresponds⟩ :=
      ((responds_swap d (List.replicate 50 7) 5).1 hprotocol).1 0x18 5000 101
    obtain ⟨n, hn⟩ := hiff.mpr (by decide)
    obtain ⟨r, t, hr, ht, -, hsequence, -, -⟩ := hresponds n hn
    exact ⟨d, r, t, hparse, hr, ht, hsequence⟩
  · obtain ⟨d, hparse, hprotocol⟩ : ∃ d, parse padded = .ok d ∧ d.headers.protocol = .udp :=
      ⟨_, rfl, rfl⟩
    obtain ⟨hiff, hresponds⟩ := ((responds_swap d (List.replicate 50 7) 5).2 hprotocol).1
    obtain ⟨n, hn⟩ := hiff.mpr (by decide)
    obtain ⟨r, u, hr, hu, hlength⟩ := hresponds n hn
    exact ⟨d, r, u, hparse, hr, hu, hlength⟩

end Datagram

end FlowRelay.Packet
