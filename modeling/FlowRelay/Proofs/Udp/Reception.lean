import FlowRelay.Proofs.Packet.RoundTrip
import FlowRelay.Proofs.Udp.Origin

/-!
# FlowRelay.Proofs.Udp.Reception

What the device gets of a datagram that the network sends.

1. *Packets* (`Outgoing.Conveys`): a packet for the device is a datagram with a payload that goes
   from one endpoint to another.  There is one such payload (`Outgoing.Conveys.payload_eq`).
2. *Writing* (`Response.exists_conveys`): a response that fits is written as such a packet.
3. *Reads* (`Coherent.outbox_step_received`): a read that ends on an open connection sends one
   packet, with as much of the datagram as there is room for.
-/

namespace FlowRelay

open Packet

/-! ## Packets -/

/-- The packet is a datagram that goes from one endpoint to another with a payload. -/
def Outgoing.Conveys (p : Outgoing) (source destination : Net.Endpoint) (payload : List UInt8) :
    Prop :=
  ∃ d, Datagram.parse p.buffer = .ok d ∧ d.headers.protocol = .udp ∧
    d.Conveys source destination payload

theorem Outgoing.Conveys.payload_eq {p : Outgoing} {source source' destination destination' :
    Net.Endpoint} {payload payload' : List UInt8} (h : p.Conveys source destination payload)
    (h' : p.Conveys source' destination' payload') : payload = payload' := by
  obtain ⟨d, hd, -, hconveys⟩ := h
  obtain ⟨d', hd', -, hconveys'⟩ := h'
  cases hd.symm.trans hd'
  exact hconveys.payload_eq.symm.trans hconveys'.payload_eq

namespace Udp

/-! ## Writing -/

/-- **Writing**: a response that fits its buffer and its length field is written as a datagram that
goes where its template says. -/
theorem Response.exists_conveys {r : Response} {udp : Packet.Udp} {buffer : List UInt8}
    (hudp : r.template.transport = .udp udp)
    (hbuffer : Headers.udpPayloadOffset + r.payload.length ≤ buffer.length)
    (hmax : Headers.udpPayloadOffset + r.payload.length ≤ 65535) :
    ∃ n, (r.write buffer).result = .ok n ∧
      Outgoing.Conveys ⟨some r.connection, (r.write buffer).buffer.take n⟩ r.template.source
        r.template.destination r.payload := by
  have hpacket : (r.write buffer).IsPacket r.template r.payload :=
    Headers.writeUdpResponse_isPacket hudp hbuffer hmax
  have hsize : r.template.size r.payload ≤ 65535 := by
    rw [Headers.size, hudp]
    exact hmax
  refine ⟨_, hpacket.result_eq, r.template.packet r.payload, ?_, ?_,
    Datagram.conveys_packet hsize⟩
  · rw [hpacket.take_eq]
    exact Datagram.parse_bytes hsize
  · rw [Headers.protocol, show (r.template.packet r.payload).headers.transport.protocol =
      r.template.transport.protocol from Transport.protocol_before _ _, hudp]
    rfl

namespace Engine

variable {e : Engine} {s : Surroundings} {id : Nat} {c : Connection}

/-! ## Reads -/

/-- There is room for a datagram that fits the device behind the headers. -/
theorem take_readRoom_iff (hmin : Headers.udpPayloadOffset ≤ e.config.mtu) (data : List UInt8) :
    data.take e.readRoom = data ↔ Headers.udpPayloadOffset + data.length ≤ e.config.mtu := by
  rw [List.take_eq_self_iff, readRoom]
  omega

/-- **Reads**: a read that ends with a datagram on an open connection sends the device one packet,
with the part of the datagram that there is room for. -/
theorem Coherent.outbox_step_received (h : e.Coherent) (hc : e.store.connection? id = some c)
    (hopen : c.closed = false) (hread : e.tasks.contains ⟨id⟩ = true)
    (hdevice : s.deviceOpen = true) (hmin : Headers.udpPayloadOffset ≤ e.config.mtu)
    (data : List UInt8)
    (hmax : Headers.udpPayloadOffset + (data.take e.readRoom).length ≤ 65535) :
    ∃ packet : Outgoing, (e.step s (.received id (.ok data))).outbox = e.outbox ++ [packet] ∧
      packet.connection = some id ∧
      packet.Conveys c.template.source c.template.destination (data.take e.readRoom) := by
  obtain ⟨udp, hudp⟩ := (h.addressed id c hc).isUdp
  have hlength : (data.take e.readRoom).length ≤ e.readRoom := List.length_take_le _ _
  have hroom : Headers.udpPayloadOffset + (data.take e.readRoom).length ≤
      (List.replicate e.config.mtu (0 : UInt8)).length := by
    rw [List.length_replicate]
    rw [readRoom] at hlength ⊢
    omega
  obtain ⟨n, hn, hconveys⟩ := Response.exists_conveys
    (r := ⟨id, c.template, data.take e.readRoom⟩) hudp hroom hmax
  refine ⟨_, ?_, rfl, hconveys⟩
  rw [outbox_step, response?, if_pos hread, hc]
  simp only [Option.bind_some, Connection.receivedResponse?, hopen, Bool.false_eq_true, if_false,
    Except.map, outgoing, hn, hdevice, if_true]

end Engine

end Udp

end FlowRelay
