import FlowRelay.Proofs.Packet.Response
import FlowRelay.Relay.Config

/-!
# FlowRelay.Proofs.Packet.Answer

Packets for the device that answer one of its datagrams.

1. *Writing* (`Written.IsPacket`): a response with a payload that fits its buffer is written, and
   what is written is a packet with the addressing of the template.
2. *Answers* (`Outgoing.IsAnswer`): such a packet fits the device, is read, verifies, and goes back
   the way the datagram came.
-/

namespace FlowRelay

open Packet Bytes

/-! ## Writing -/

/-- What was written is the packet with these headers and this payload. -/
structure Packet.Written.IsPacket (w : Written) (h : Headers) (payload : List UInt8) : Prop where
  result_eq : w.result = .ok (h.size payload)
  take_eq : w.buffer.take (h.size payload) = h.bytes payload

namespace Packet.Headers

variable {h : Headers} {buffer payload : List UInt8} {length : Nat}

/-- The headers of a TCP segment that is sent with the addressing of others. -/
def withTcp (h : Headers) (t : Tcp) : Headers := { h with transport := .tcp t }

/-- Other control fields leave the addressing as it is. -/
theorem source_withTcp {t : Tcp} (ht : h.transport = .tcp t) (flags : UInt8)
    (sequence acknowledgement : UInt32) :
    (h.withTcp (t.control flags sequence acknowledgement)).source = h.source := by
  rw [source, source, ht]
  rfl

theorem destination_withTcp {t : Tcp} (ht : h.transport = .tcp t) (flags : UInt8)
    (sequence acknowledgement : UInt32) :
    (h.withTcp (t.control flags sequence acknowledgement)).destination = h.destination := by
  rw [destination, destination, ht]
  rfl

/-- A response of TCP is the packet of the template with what was staged, in front of what was
behind it in the buffer. -/
theorem writeTcpResponse_eq_bytes {t : Tcp} (ht : h.transport = .tcp t)
    (hbuffer : tcpPayloadOffset + length ≤ buffer.length)
    (hmax : tcpPayloadOffset + length ≤ 65535) (flags : UInt8)
    (sequence acknowledgement : UInt32) :
    h.writeTcpResponse buffer flags sequence acknowledgement length =
      ⟨(h.withTcp (t.control flags sequence acknowledgement)).bytes
          ((buffer.drop tcpPayloadOffset).take length) ++ buffer.drop (tcpPayloadOffset + length),
        .ok (tcpPayloadOffset + length)⟩ := by
  rw [withTcp, ← responseBytes_append _ ht, List.append_assoc, ← List.drop_drop,
    List.take_append_drop]
  exact writeTcpResponse_eq ht hbuffer hmax

/-- **Writing**: a segment that fits the buffer and its length field is written. -/
theorem writeTcpResponse_isPacket {t : Tcp} (ht : h.transport = .tcp t)
    (hbuffer : tcpPayloadOffset + payload.length ≤ buffer.length)
    (hmax : tcpPayloadOffset + payload.length ≤ 65535) (flags : UInt8)
    (sequence acknowledgement : UInt32) :
    (h.writeTcpResponse (overwrite buffer tcpPayloadOffset payload) flags sequence acknowledgement
      payload.length).IsPacket (h.withTcp (t.control flags sequence acknowledgement)) payload := by
  have hsize : (h.withTcp (t.control flags sequence acknowledgement)).size payload =
      tcpPayloadOffset + payload.length := rfl
  have hlength := length_overwrite hbuffer
  have hw := writeTcpResponse_eq_bytes ht (hlength ▸ hbuffer) hmax flags sequence acknowledgement
  rw [drop_overwrite hbuffer, List.take_left] at hw
  refine ⟨by rw [hw, hsize], ?_⟩
  rw [hw]
  exact List.take_left' (length_bytes _ _)

/-- A datagram that fits the buffer and its length field is written. -/
theorem writeUdpResponse_isPacket {u : Udp} (hu : h.transport = .udp u)
    (hbuffer : udpPayloadOffset + payload.length ≤ buffer.length)
    (hmax : udpPayloadOffset + payload.length ≤ 65535) :
    (h.writeUdpResponse (overwrite buffer udpPayloadOffset payload) payload.length).IsPacket h
      payload := by
  have hsize : h.size payload = udpPayloadOffset + payload.length := by
    rw [size, hu]
    rfl
  have hlength := length_overwrite hbuffer
  have hw := writeUdpResponse_eq hu (hlength ▸ hbuffer) hmax
  rw [drop_overwrite hbuffer, List.take_left] at hw
  refine ⟨by rw [hw, hsize], ?_⟩
  rw [hw]
  exact List.take_left' (length_bytes _ _)

end Packet.Headers

/-! ## Answers -/

/-- A packet for the device answers one of its datagrams: it fits, it is read with checksums that
verify, it comes from where the datagram was sent to, and goes to where the datagram came from. -/
structure Outgoing.IsAnswer (p : Outgoing) (mtu : Nat) (d : Datagram) : Prop where
  length_le : p.buffer.length ≤ mtu
  read : ∃ d', Datagram.parse p.buffer = .ok d' ∧ d'.checksumsVerify = true ∧
    d'.source = d.destination ∧ d'.destination = d.source ∧
    d'.headers.protocol = d.headers.protocol

/-- **Answers**: a packet that is written with the addressing of an answer is one. -/
theorem Packet.Written.IsPacket.isAnswer {w : Written} {h : Headers} {payload : List UInt8}
    {d : Datagram} {mtu n : Nat} (hw : w.IsPacket h payload) (hmtu : h.size payload ≤ mtu)
    (hmax : h.size payload ≤ 65535) (hsource : h.source = d.destination)
    (hdestination : h.destination = d.source) (hprotocol : h.protocol = d.headers.protocol)
    (hn : w.result = .ok n) (connection : Option Nat) :
    Outgoing.IsAnswer ⟨connection, w.buffer.take n⟩ mtu d := by
  obtain rfl : h.size payload = n := Except.ok.inj (hw.result_eq.symm.trans hn)
  rw [hw.take_eq]
  refine ⟨by rwa [Headers.length_bytes], h.packet payload, Datagram.parse_bytes hmax,
    Datagram.checksumsVerify_packet hmax, ?_, ?_, ?_⟩
  · rw [Datagram.source_packet, hsource]
  · rw [Datagram.destination_packet, hdestination]
  · exact (Transport.protocol_before h.transport payload).trans hprotocol

end FlowRelay
