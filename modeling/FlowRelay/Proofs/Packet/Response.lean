import FlowRelay.Flow.Key
import FlowRelay.Proofs.Packet.Layout

/-!
# FlowRelay.Proofs.Packet.Response

What the device reads in a packet that was written from a template.

1. *Writing* (`Headers.writeTcpResponse_eq`, `Headers.writeUdpResponse_eq`): a response is both
   headers in front of what was staged in the buffer.
2. *Reading* (`Datagram.parse_writeTcpResponse`, `Datagram.parse_writeUdpResponse`): the device
   reads the control fields that were asked for, and the payload that was staged.
-/

namespace FlowRelay.Packet

open Bytes

/-! ## Writing -/

namespace Headers

variable {h : Headers} {t : Tcp} {buffer : List UInt8} {flags : UInt8}
  {sequence acknowledgement : UInt32} {length n : Nat}

/-- Both headers in front of a payload, addressed by a template. -/
def responseBytes (h : Headers) (t : Tcp) (payload : List UInt8) : List UInt8 :=
  h.freshNetwork.bytes (tcpPayloadOffset + payload.length).toUInt16 ++
    t.bytes h.network.source h.network.destination payload

theorem length_responseBytes (h : Headers) (t : Tcp) (payload : List UInt8) :
    (h.responseBytes t payload).length = tcpPayloadOffset := by
  rw [responseBytes, List.length_append, Ipv4.length_bytes, Tcp.length_bytes, tcpPayloadOffset]

/-- A TCP header is written in front of what was staged behind it. -/
theorem write_staged (t : Tcp) (source destination : Net.Address)
    (hbuffer : tcpPayloadOffset + length ≤ buffer.length) :
    t.write source destination (buffer.drop Ipv4.headerLength)
        (tcpPayloadOffset + length - Ipv4.headerLength) =
      ⟨t.bytes source destination ((buffer.drop tcpPayloadOffset).take length) ++
        buffer.drop tcpPayloadOffset, .ok Tcp.headerLength⟩ := by
  have hslice : slice (buffer.drop Ipv4.headerLength) Tcp.headerLength
      (tcpPayloadOffset + length - Ipv4.headerLength) =
      (buffer.drop tcpPayloadOffset).take length := by
    rw [slice, List.drop_drop, tcpPayloadOffset]
    congr 1
    omega
  have hmin : Ipv4.headerLength + Tcp.headerLength ≤ tcpPayloadOffset + length :=
    Nat.le_add_right _ _
  rw [Tcp.write_eq _ _ _ (by omega) (by rw [List.length_drop]; omega), hslice, List.drop_drop]
  rfl

/-- **Writing**: a response is both headers in front of what was staged behind them. -/
theorem writeTcpResponse_eq (ht : h.transport = .tcp t)
    (hbuffer : tcpPayloadOffset + length ≤ buffer.length)
    (hlength : tcpPayloadOffset + length ≤ 65535) :
    h.writeTcpResponse buffer flags sequence acknowledgement length =
      ⟨h.responseBytes (t.control flags sequence acknowledgement)
        ((buffer.drop tcpPayloadOffset).take length) ++ buffer.drop tcpPayloadOffset,
        .ok (tcpPayloadOffset + length)⟩ := by
  have hpayload : ((buffer.drop tcpPayloadOffset).take length).length = length := by
    rw [List.length_take, List.length_drop]
    omega
  have hmin : Ipv4.headerLength ≤ tcpPayloadOffset + length :=
    Nat.le_trans (Nat.le_add_right _ _) (Nat.le_add_right _ _)
  have htransport := write_staged (t.control flags sequence acknowledgement) h.network.source
    h.network.destination hbuffer
  unfold writeTcpResponse
  simp only [ht]
  rw [if_neg (by omega), writeBoth_eq htransport (by
    simp only [List.length_append, Tcp.length_bytes, List.length_drop, tcpPayloadOffset]
      at hbuffer ⊢
    omega) hmin hbuffer hlength]
  rw [responseBytes, hpayload, List.append_assoc]

/-- A response is written only as a TCP packet that fits into the buffer and into its length
field. -/
theorem writeTcpResponse_ok
    (hok : (h.writeTcpResponse buffer flags sequence acknowledgement length).result = .ok n) :
    (∃ t, h.transport = .tcp t) ∧ tcpPayloadOffset + length ≤ buffer.length ∧
      tcpPayloadOffset + length ≤ 65535 := by
  unfold writeTcpResponse at hok
  cases ht : h.transport with
  | udp u =>
      simp only [ht] at hok
      contradiction
  | tcp t =>
      simp only [ht] at hok
      by_cases hbuffer : buffer.length < tcpPayloadOffset + length
      · rw [if_pos hbuffer] at hok
        contradiction
      · rw [if_neg hbuffer] at hok
        exact ⟨⟨t, rfl⟩, by omega, writeBoth_ok hok⟩

/-! ## Reading -/

/-- Another TCP header calls for the same IPv4 header. -/
theorem freshNetwork_withTcp (ht : h.transport = .tcp t) (t' : Tcp) :
    ({ h with transport := .tcp t' } : Headers).freshNetwork = h.freshNetwork := by
  simp only [freshNetwork, protocol, ht, Transport.protocol]

/-- In front of the payload that was staged, both headers make up a packet. -/
theorem responseBytes_append (payload : List UInt8) (ht : h.transport = .tcp t) (t' : Tcp) :
    h.responseBytes t' payload ++ payload =
      ({ h with transport := .tcp t' } : Headers).bytes payload := by
  rw [bytes, freshNetwork_withTcp ht, responseBytes, List.append_assoc]
  rfl

/-- A packet that was written is read with the headers that it was written with. -/
theorem parse_responseBytes (payload : List UInt8) (ht : h.transport = .tcp t)
    (hlength : tcpPayloadOffset + payload.length ≤ 65535) (t' : Tcp) :
    parse (h.responseBytes t' payload ++ payload) =
      .ok (⟨{ h.freshNetwork with totalLength := (tcpPayloadOffset + payload.length).toUInt16 },
        .tcp t'⟩, ⟨tcpPayloadOffset, tcpPayloadOffset + payload.length⟩) := by
  have hread := parse_bytes { h with transport := .tcp t' } payload hlength
  rw [responseBytes_append payload ht, hread, before, freshNetwork_withTcp ht]
  rfl

end Headers

/-- **Reading**: the device reads the control fields that were asked for, and the payload that was
staged. -/
theorem Datagram.parse_writeTcpResponse {h : Headers} {buffer : List UInt8} {flags : UInt8}
    {sequence acknowledgement : UInt32} {length n : Nat}
    (hok : (h.writeTcpResponse buffer flags sequence acknowledgement length).result = .ok n) :
    ∃ d t, Datagram.parse
        ((h.writeTcpResponse buffer flags sequence acknowledgement length).buffer.take n) = .ok d ∧
      h.transport = .tcp t ∧ d.headers.tcp? = some (t.control flags sequence acknowledgement) ∧
      d.source = h.source ∧ d.destination = h.destination ∧
      d.payload = (buffer.drop Headers.tcpPayloadOffset).take length := by
  obtain ⟨⟨t, ht⟩, hbuffer, hlength⟩ := Headers.writeTcpResponse_ok hok
  have hw : h.writeTcpResponse buffer flags sequence acknowledgement length = _ :=
    Headers.writeTcpResponse_eq ht hbuffer hlength
  have hpayload : ((buffer.drop Headers.tcpPayloadOffset).take length).length = length := by
    rw [List.length_take, List.length_drop]
    omega
  rw [hw] at hok ⊢
  injection hok with hn
  subst hn
  have htake : (h.responseBytes (t.control flags sequence acknowledgement)
      ((buffer.drop Headers.tcpPayloadOffset).take length) ++
        buffer.drop Headers.tcpPayloadOffset).take (Headers.tcpPayloadOffset + length) =
      h.responseBytes (t.control flags sequence acknowledgement)
        ((buffer.drop Headers.tcpPayloadOffset).take length) ++
          (buffer.drop Headers.tcpPayloadOffset).take length := by
    rw [List.take_append, Headers.length_responseBytes, Nat.add_sub_cancel_left,
      List.take_of_length_le (by rw [Headers.length_responseBytes]; omega)]
  have hread := Headers.parse_responseBytes
    ((buffer.drop Headers.tcpPayloadOffset).take length) ht (by rw [hpayload]; exact hlength)
    (t.control flags sequence acknowledgement)
  rw [hpayload] at hread
  simp only [htake]
  rw [parse, hread]
  refine ⟨_, t, rfl, ht, rfl, ?_, ?_, ?_⟩
  · simp only [Datagram.source, Headers.source, ht]
    rfl
  · simp only [Datagram.destination, Headers.destination, ht]
    rfl
  · rw [Datagram.payload, slice, Nat.add_sub_cancel_left, List.drop_left'
      (Headers.length_responseBytes _ _ _), List.take_of_length_le (Nat.le_of_eq hpayload)]

/-! ## Datagrams of UDP -/

section

variable {h : Headers} {buffer : List UInt8} {length n : Nat}

/-- A response of UDP is the packet of the template with what was staged, in front of what was
behind it in the buffer. -/
theorem Headers.writeUdpResponse_eq {u : Udp} (hu : h.transport = .udp u)
    (hbuffer : udpPayloadOffset + length ≤ buffer.length)
    (hlength : udpPayloadOffset + length ≤ 65535) :
    h.writeUdpResponse buffer length =
      ⟨h.bytes ((buffer.drop udpPayloadOffset).take length) ++
        buffer.drop (udpPayloadOffset + length), .ok (udpPayloadOffset + length)⟩ := by
  have hpayload : ((buffer.drop udpPayloadOffset).take length).length = length := by
    rw [List.length_take, List.length_drop]
    omega
  have hslice : slice (buffer.drop Ipv4.headerLength) Udp.headerLength
      (udpPayloadOffset + length - Ipv4.headerLength) =
      (buffer.drop udpPayloadOffset).take length := by
    rw [slice, List.drop_drop, udpPayloadOffset]
    congr 1
    omega
  have hmin : Ipv4.headerLength + Udp.headerLength ≤ udpPayloadOffset + length :=
    Nat.le_add_right _ _
  have htransport : u.write h.network.source h.network.destination
      (buffer.drop Ipv4.headerLength) (udpPayloadOffset + length - Ipv4.headerLength) =
      ⟨u.bytes h.network.source h.network.destination
        ((buffer.drop udpPayloadOffset).take length) ++
          (buffer.drop Ipv4.headerLength).drop Udp.headerLength, .ok Udp.headerLength⟩ := by
    rw [Udp.write_eq _ _ _ (by omega) (by rw [List.length_drop]; omega) (by omega), hslice]
  have hsize : h.size ((buffer.drop udpPayloadOffset).take length) = udpPayloadOffset + length := by
    rw [size, hpayload, hu]
    rfl
  have hbehind : (buffer.drop Ipv4.headerLength).drop Udp.headerLength =
      (buffer.drop udpPayloadOffset).take length ++ buffer.drop (udpPayloadOffset + length) := by
    rw [← List.drop_drop, List.take_append_drop, List.drop_drop]
    rfl
  unfold writeUdpResponse
  simp only [hu]
  rw [if_neg (by omega), writeBoth_eq htransport (by
    simp only [List.length_append, Udp.length_bytes, List.length_drop]
    omega) (by omega) hbuffer hlength]
  rw [bytes, hsize, hu, hbehind, Transport.bytes]
  simp only [List.append_assoc]

/-- A response is written only as a UDP packet that fits into the buffer and into its length
field. -/
theorem Headers.writeUdpResponse_ok (hok : (h.writeUdpResponse buffer length).result = .ok n) :
    (∃ u, h.transport = .udp u) ∧ udpPayloadOffset + length ≤ buffer.length ∧
      udpPayloadOffset + length ≤ 65535 := by
  unfold writeUdpResponse at hok
  cases ht : h.transport with
  | tcp t =>
      simp only [ht] at hok
      contradiction
  | udp u =>
      simp only [ht] at hok
      by_cases hbuffer : buffer.length < udpPayloadOffset + length
      · rw [if_pos hbuffer] at hok
        contradiction
      · rw [if_neg hbuffer] at hok
        exact ⟨⟨u, rfl⟩, by omega, writeBoth_ok hok⟩

/-- The device reads the packet of the template with what was staged. -/
theorem Datagram.parse_writeUdpResponse
    (hok : (h.writeUdpResponse buffer length).result = .ok n) :
    Datagram.parse ((h.writeUdpResponse buffer length).buffer.take n) =
      .ok (h.packet ((buffer.drop Headers.udpPayloadOffset).take length)) := by
  obtain ⟨⟨u, hu⟩, hbuffer, hlength⟩ := Headers.writeUdpResponse_ok hok
  have hsize : h.size ((buffer.drop Headers.udpPayloadOffset).take length) =
      Headers.udpPayloadOffset + length := by
    rw [Headers.size, List.length_take, List.length_drop, hu]
    simp only [Transport.headerLength, Headers.udpPayloadOffset] at hbuffer ⊢
    omega
  rw [Headers.writeUdpResponse_eq hu hbuffer hlength] at hok ⊢
  injection hok with hn
  rw [← hn, ← hsize, List.take_left' (Headers.length_bytes _ _)]
  exact Datagram.parse_bytes (hsize ▸ hlength)

end

/-! ## Flows -/

/-- Packets with these headers come from the far end of a flow, and go to the port that the flow is
from. -/
structure Headers.Answers (h : Headers) (key : Flow.Key) : Prop where
  source : h.source = key.destination
  port : h.destination.port = key.sourcePort

/-- The flow whose far end a packet to the device comes from. -/
def flow? (bytes : List UInt8) : Option Flow.Key :=
  match Datagram.parse bytes with
  | .error _ => none
  | .ok d => some ⟨d.source, d.destination.port⟩

namespace Headers

variable {h : Headers} {key : Flow.Key} {buffer : List UInt8} {length n : Nat}

theorem tcp?_eq_some {t : Tcp} : h.tcp? = some t ↔ h.transport = .tcp t := by
  unfold tcp?
  cases h.transport <;> simp

theorem udp?_eq_some {u : Udp} : h.udp? = some u ↔ h.transport = .udp u := by
  unfold udp?
  cases h.transport <;> simp

@[simp] theorem source_swap (h : Headers) : h.swap.source = h.destination := by
  cases ht : h.transport <;> simp only [source, destination, swap, ht] <;> rfl

@[simp] theorem destination_swap (h : Headers) : h.swap.destination = h.source := by
  cases ht : h.transport <;> simp only [source, destination, swap, ht] <;> rfl

/-- Swapping a TCP header gives a TCP header. -/
theorem exists_tcp_swap (hprotocol : h.protocol = .tcp) :
    ∃ t, h.transport = .tcp t ∧ h.swap.transport = .tcp t.swap := by
  cases ht : h.transport with
  | tcp t => exact ⟨t, rfl, by rw [swap, ht, Transport.swap]⟩
  | udp u => simp [protocol, ht, Transport.protocol] at hprotocol

/-- Swapping a UDP header gives a UDP header. -/
theorem exists_udp_swap (hprotocol : h.protocol = .udp) :
    ∃ u, h.transport = .udp u ∧ h.swap.transport = .udp u.swap := by
  cases ht : h.transport with
  | tcp t => simp [protocol, ht, Transport.protocol] at hprotocol
  | udp u => exact ⟨u, rfl, by rw [swap, ht, Transport.swap]⟩

/-- The answers to a packet are addressed by its swapped headers. -/
theorem answers_swap (h : Headers) : h.swap.Answers ⟨h.destination, h.source.port⟩ :=
  ⟨h.source_swap, congrArg Net.Endpoint.port h.destination_swap⟩

/-- A segment that is written to answer a flow is a packet of this flow. -/
theorem Answers.flow?_writeTcpResponse (hanswers : h.Answers key) {flags : UInt8}
    {sequence acknowledgement : UInt32}
    (hok : (h.writeTcpResponse buffer flags sequence acknowledgement length).result = .ok n) :
    flow? ((h.writeTcpResponse buffer flags sequence acknowledgement length).buffer.take n) =
      some key := by
  obtain ⟨d, t, hparse, -, -, hsource, hdestination, -⟩ := Datagram.parse_writeTcpResponse hok
  simp only [flow?, hparse, hsource, hdestination, hanswers.source, hanswers.port]

/-- A datagram that is written to answer a flow is a packet of this flow. -/
theorem Answers.flow?_writeUdpResponse (hanswers : h.Answers key)
    (hok : (h.writeUdpResponse buffer length).result = .ok n) :
    flow? ((h.writeUdpResponse buffer length).buffer.take n) = some key := by
  simp only [flow?, Datagram.parse_writeUdpResponse hok, Datagram.source_packet,
    Datagram.destination_packet, hanswers.source, hanswers.port]

end Headers

end FlowRelay.Packet
