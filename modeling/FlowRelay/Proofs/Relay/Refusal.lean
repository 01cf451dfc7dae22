import FlowRelay.Proofs.Relay.Isolation
import FlowRelay.Proofs.Tcp.Response
import FlowRelay.Proofs.Tcp.Sent

/-!
# FlowRelay.Proofs.Relay.Refusal

A flow for which no socket can be had leaves no trace.

1. *First packets* (`handleFirst`): how a packet of an unknown flow is handled.
2. *Refusals* (`IsRefusal`): the RST that a SYN gets which cannot open its flow.  It may be that it
   does not fit the buffers, or that nobody takes it; then the SYN gets no answer.
3. *No trace* (`unopened_leavesNoTrace`): nothing but that RST tells, then or later, that the flow
   was asked for.
-/

namespace FlowRelay

open Packet

/-- A packet is the RST that a SYN gets which cannot open its flow: it verifies, comes from where
the SYN was sent to, goes to where it came from, and acknowledges the SYN alone. -/
structure Outgoing.IsRefusal (p : Outgoing) (d : Datagram) (syn : Packet.Tcp) : Prop where
  connection_eq : p.connection = none
  read : ∃ d' tcp, Datagram.parse p.buffer = .ok d' ∧ d'.checksumsVerify = true ∧
    d'.source = d.destination ∧ d'.destination = d.source ∧ d'.headers.tcp? = some tcp ∧
    tcp.flags = Flag.rst ||| Flag.ack ∧ tcp.sequence = 0 ∧
    tcp.acknowledgement = syn.sequence + 1 ∧ d'.payload = []

/-! ## TCP -/

namespace Tcp.Engine

variable {e : Engine} {s : Surroundings} {fault : Fault} {d : Datagram} {syn : Packet.Tcp}

/-- Take a packet from the device as the first one of its flow. -/
def handleFirst (e : Engine) (s : Surroundings) (initial : UInt32) (d : Datagram) :
    Engine × Except Fault Unit :=
  match d.headers.tcp? with
  | none => (e, .ok ())
  | some tcp =>
    if tcp.isSyn && !tcp.isAck && !tcp.isRst then
      e.openConnection s initial ⟨d.destination, d.source.port⟩ d.headers tcp
    else (e, .ok ())

/-- A packet of an unknown flow is the first one. -/
theorem handle_of_unknown (hunknown : e.store.table.peek? ⟨d.destination, d.source.port⟩ = none)
    (s : Surroundings) (initial : UInt32) : e.handle s initial d = e.handleFirst s initial d := by
  unfold handle handleFirst
  cases d.headers.tcp? with
  | none => rfl
  | some tcp => simp only [Flow.Store.find?, Table.snd_get?, hunknown]

/-- What is written for a SYN that cannot open its flow. -/
def refusalWritten (e : Engine) (d : Datagram) (syn : Packet.Tcp) : Written :=
  d.headers.swap.writeTcpResponse e.blank (Flag.rst ||| Flag.ack) 0 (syn.sequence + 1) 0

/-- A flow for which no socket can be had is refused. -/
theorem openConnection_refused (hsocket : s.socket = .error fault) (e : Engine) (initial : UInt32)
    (key : Flow.Key) (d : Datagram) (syn : Packet.Tcp) :
    e.openConnection s initial key d.headers syn =
      ((e.emit s none (e.refusalWritten d syn)).1,
        .error (match (e.emit s none (e.refusalWritten d syn)).2 with
          | .error x => x
          | .ok () => fault)) := by
  simp only [openConnection, hsocket, refusalWritten]
  rcases e.emit s none _ with ⟨e', _ | _⟩ <;> rfl

theorem refusalWritten_of_small (htcp : d.headers.tcp? = some syn)
    (hsmall : e.config.mtu < Headers.tcpPayloadOffset) :
    (e.refusalWritten d syn).result = .error .bufferTooSmall := by
  have hswap : d.headers.swap.transport = .tcp syn.swap :=
    congrArg Transport.swap (Headers.tcp?_eq_some.mp htcp)
  have hblank : e.blank.length < Headers.tcpPayloadOffset + 0 := by
    rwa [blank, List.length_replicate]
  rw [refusalWritten, Headers.writeTcpResponse, hswap]
  simp only [if_pos hblank]
  rfl

/-- The RST of a refused flow is written as a packet that answers the SYN. -/
theorem refusalWritten_of_fits (htcp : d.headers.tcp? = some syn)
    (hfits : Headers.tcpPayloadOffset ≤ e.config.mtu) :
    ∃ n, (e.refusalWritten d syn).result = .ok n ∧
      Outgoing.IsRefusal ⟨none, (e.refusalWritten d syn).buffer.take n⟩ d syn := by
  have hswap : d.headers.swap.transport = .tcp syn.swap :=
    congrArg Transport.swap (Headers.tcp?_eq_some.mp htcp)
  have hblank : Headers.tcpPayloadOffset + ([] : List UInt8).length ≤ e.blank.length := by
    rwa [blank, List.length_replicate]
  let t := syn.swap.control (Flag.rst ||| Flag.ack) 0 (syn.sequence + 1)
  let h := d.headers.swap.withTcp t
  have hstaged : Bytes.overwrite e.blank Headers.tcpPayloadOffset [] = e.blank := by
    simp [Bytes.overwrite]
  have hpacket : (e.refusalWritten d syn).IsPacket h [] := by
    have hwritten := Headers.writeTcpResponse_isPacket hswap hblank (by decide)
      (Flag.rst ||| Flag.ack) 0 (syn.sequence + 1)
    rwa [hstaged] at hwritten
  have hmax : h.size [] ≤ 65535 := by
    change Headers.tcpPayloadOffset ≤ 65535
    decide
  refine ⟨_, hpacket.result_eq, rfl, h.packet [], t, ?_, ?_, ?_, ?_, Datagram.tcp?_packet, rfl,
    rfl, rfl, Datagram.payload_packet⟩
  · exact (congrArg Datagram.parse hpacket.take_eq).trans (Datagram.parse_bytes hmax)
  · exact Datagram.checksumsVerify_packet hmax
  · rw [Datagram.source_packet, Headers.source_withTcp hswap, Headers.source_swap]
    rfl
  · rw [Datagram.destination_packet, Headers.destination_withTcp hswap, Headers.destination_swap]
    rfl

/-- **Refusals**: a SYN that cannot open its flow changes nothing but what the device is sent, and
that is the RST alone, or nothing where the RST does not fit or nobody takes it. -/
theorem handle_refused (htcp : d.headers.tcp? = some syn)
    (hsyn : (syn.isSyn && !syn.isAck && !syn.isRst) = true)
    (hunknown : e.store.table.peek? ⟨d.destination, d.source.port⟩ = none)
    (hsocket : s.socket = .error fault) (initial : UInt32) :
    ∃ sent x, e.handle s initial d = ({ e with outbox := e.outbox ++ sent }, .error x) ∧
      (Headers.tcpPayloadOffset ≤ e.config.mtu → s.deviceOpen = true →
        x = fault ∧ ∃ p, sent = [p] ∧ p.IsRefusal d syn) ∧
      (¬ (Headers.tcpPayloadOffset ≤ e.config.mtu ∧ s.deviceOpen = true) →
        sent = [] ∧ x = if e.config.mtu < Headers.tcpPayloadOffset then
          .packet .bufferTooSmall else .deviceStopped) := by
  have hhandle : e.handle s initial d =
      e.openConnection s initial ⟨d.destination, d.source.port⟩ d.headers syn := by
    rw [handle_of_unknown hunknown, handleFirst, htcp]
    exact if_pos hsyn
  rw [hhandle, openConnection_refused hsocket]
  by_cases hfits : Headers.tcpPayloadOffset ≤ e.config.mtu
  · obtain ⟨n, hn, hrefusal⟩ := refusalWritten_of_fits htcp hfits
    cases hopen : s.deviceOpen with
    | true =>
        simp only [emit, hn, hopen, if_true]
        exact ⟨_, fault, rfl, fun _ _ => ⟨rfl, _, rfl, hrefusal⟩,
          fun hnot => absurd ⟨hfits, trivial⟩ hnot⟩
    | false =>
        simp only [emit, hn, hopen]
        refine ⟨[], .deviceStopped, by simp, fun _ hopen => absurd hopen (by decide), fun _ => ?_⟩
        exact ⟨rfl, (if_neg (by omega)).symm⟩
  · have hsmall : e.config.mtu < Headers.tcpPayloadOffset := by omega
    simp only [emit, refusalWritten_of_small htcp hsmall]
    exact ⟨[], .packet .bufferTooSmall, by simp, fun h => absurd h hfits,
      fun _ => ⟨rfl, (if_pos hsmall).symm⟩⟩

/-- An engine that has sent other packets goes on in the same way. -/
theorem run_of_sent (e : Engine) (sent : List Outgoing) (steps : List (Surroundings × Event)) :
    ∃ later, (e.run steps).outbox = e.outbox ++ later ∧
      ({ e with outbox := e.outbox ++ sent } : Engine).run steps =
        { e.run steps with outbox := e.outbox ++ sent ++ later } := by
  have hbefore := run_behind { e with outbox := [] } e.outbox steps
  have hafter := run_behind { e with outbox := [] } (e.outbox ++ sent) steps
  simp only [behind, List.append_nil] at hbefore hafter
  exact ⟨(({ e with outbox := [] } : Engine).run steps).outbox, by rw [hbefore],
    by rw [hafter, hbefore]⟩

end Tcp.Engine

/-! ## UDP -/

namespace Udp.Engine

variable {e : Engine} {s : Surroundings} {fault : Fault} {d : Datagram}

/-- Take a packet from the device as the first one of its flow. -/
def handleFirst (e : Engine) (s : Surroundings) (calls : SocketCalls) (d : Datagram) : Engine :=
  match d.headers.udp? with
  | none => e
  | some _ =>
    match e.openConnection s calls ⟨d.destination, d.source.port⟩ d.headers with
    | (e, .ok id) => e.forward s calls id d.payload
    | (e, .error _) => e

/-- A datagram of an unknown flow is the first one. -/
theorem handle_of_unknown (hunknown : e.store.table.peek? ⟨d.destination, d.source.port⟩ = none)
    (s : Surroundings) (calls : SocketCalls) : e.handle s calls d = e.handleFirst s calls d := by
  unfold handle handleFirst
  cases d.headers.udp? with
  | none => rfl
  | some udp =>
      cases hopened : e.openConnection s calls ⟨d.destination, d.source.port⟩ d.headers with
      | mk e' id? =>
          cases id? <;> simp only [Flow.Store.find?, Table.snd_get?, hunknown, hopened]

/-- A flow for which no socket can be had is not opened. -/
theorem openConnection_refused (hsocket : s.socket = .error fault) (e : Engine)
    (calls : SocketCalls) (key : Flow.Key) (headers : Headers) :
    e.openConnection s calls key headers = (e, .error fault) := by
  simp only [openConnection, hsocket]

/-- A datagram that cannot open its flow is dropped, and that is all. -/
theorem handle_refused (hunknown : e.store.table.peek? ⟨d.destination, d.source.port⟩ = none)
    (hsocket : s.socket = .error fault) (calls : SocketCalls) : e.handle s calls d = e := by
  rw [handle_of_unknown hunknown, handleFirst, openConnection_refused hsocket]
  cases d.headers.udp? <;> rfl

/-- It is not sent later either. -/
theorem accept_refused (hunknown : e.store.table.peek? ⟨d.destination, d.source.port⟩ = none)
    (hsocket : s.socket = .error fault) (calls : SocketCalls) :
    e.accept s calls d = (e, none) := by
  unfold accept
  simp only [Flow.Store.find?, Table.snd_get?, hunknown, openConnection_refused hsocket]
  cases d.headers.udp? <;> rfl

end Udp.Engine

/-! ## Both engines -/

namespace Engines

/-- **No trace**: whatever the engines have done, and however full their tables are, a SYN or a
datagram that cannot open its flow for want of a socket changes nothing in them but the packets for
the device.  The SYN is answered by a RST and its fault is told, if a RST fits the buffers and
somebody takes it; otherwise nothing is sent, and that is the fault that is told.  The next packet
of the flow is its first one, and everything that happens later happens as it would have. -/
theorem unopened_leavesNoTrace (e : Engines) {s : Surroundings} {fault : Fault}
    (hsocket : s.socket = .error fault) :
    (∀ initial d syn, d.headers.tcp? = some syn →
      (syn.isSyn && !syn.isAck && !syn.isRst) = true →
      e.tcp.store.table.peek? ⟨d.destination, d.source.port⟩ = none →
      ∃ sent x,
        let e' : Tcp.Engine := { e.tcp with outbox := e.tcp.outbox ++ sent }
        e.tcp.handle s initial d = (e', .error x) ∧
        (Headers.tcpPayloadOffset ≤ e.tcp.config.mtu → s.deviceOpen = true →
          x = fault ∧ ∃ p, sent = [p] ∧ p.IsRefusal d syn) ∧
        (¬ (Headers.tcpPayloadOffset ≤ e.tcp.config.mtu ∧ s.deviceOpen = true) →
          sent = [] ∧ x = if e.tcp.config.mtu < Headers.tcpPayloadOffset then
            .packet .bufferTooSmall else .deviceStopped) ∧
        (∀ s' initial' d', d'.destination = d.destination → d'.source.port = d.source.port →
          e'.handle s' initial' d' = e'.handleFirst s' initial' d') ∧
        ∀ steps, ∃ later, (e.tcp.run steps).outbox = e.tcp.outbox ++ later ∧
          e'.run steps = { e.tcp.run steps with outbox := e.tcp.outbox ++ sent ++ later }) ∧
    (∀ calls d, e.udp.store.table.peek? ⟨d.destination, d.source.port⟩ = none →
      e.udp.handle s calls d = e.udp ∧ e.udp.accept s calls d = (e.udp, none) ∧
        ∀ s' calls' d', d'.destination = d.destination → d'.source.port = d.source.port →
          e.udp.handle s' calls' d' = e.udp.handleFirst s' calls' d') := by
  refine ⟨fun initial d syn htcp hsyn hunknown => ?_, fun calls d hunknown => ?_⟩
  · obtain ⟨sent, x, hhandle, htold, hunsent⟩ :=
      Tcp.Engine.handle_refused htcp hsyn hunknown hsocket initial
    refine ⟨sent, x, hhandle, htold, hunsent, fun s' initial' d' hdestination hport => ?_,
      e.tcp.run_of_sent sent⟩
    exact Tcp.Engine.handle_of_unknown (by rw [hdestination, hport]; exact hunknown) s' initial'
  · refine ⟨Udp.Engine.handle_refused hunknown hsocket calls,
      Udp.Engine.accept_refused hunknown hsocket calls, fun s' calls' d' hdestination hport => ?_⟩
    exact Udp.Engine.handle_of_unknown (by rw [hdestination, hport]; exact hunknown) s' calls'

/-! ## Samples -/

namespace Sample

open Tcp.Engine.Sample (config surroundings target)

/-- Sockets cannot be protected. -/
def unprotected : Surroundings :=
  { surroundings with socket := .error (.outside .permissionDenied "not protected") }

/-- Each table has room for one connection, which is there. -/
def crowded : Engines :=
  (empty { config with capacity := 1 } false).run
    [(surroundings, .tcp (.segment 200 (other Flag.syn 9))),
      (surroundings, .udp (.datagram calls (datagram [1, 2])))]

/-- A datagram of another flow of the device. -/
def stranger : Datagram :=
  { datagram [3] with headers := .udp ⟨⟨10, 0, 0, 2⟩, 5001⟩ target }

end Sample

/-- A full table keeps its connection when a flow cannot be opened. -/
theorem unopened_of_crowded :
    let e := Sample.crowded
    let d := Tcp.Engine.Sample.datagram Flag.syn 7 []
    e.tcp.store.table.size = 1 ∧ e.udp.store.table.size = 1 ∧
      (∃ syn p, d.headers.tcp? = some syn ∧ p.IsRefusal d syn ∧
        e.tcp.handle Sample.unprotected 100 d = ({ e.tcp with outbox := e.tcp.outbox ++ [p] },
          .error (.outside .permissionDenied "not protected"))) ∧
      e.udp.handle Sample.unprotected Sample.calls Sample.stranger = e.udp := by
  intro e d
  have hsocket : Sample.unprotected.socket =
      .error (.outside .permissionDenied "not protected") := rfl
  obtain ⟨htcp, hudp⟩ := unopened_leavesNoTrace e hsocket
  obtain ⟨syn, hd⟩ : ∃ syn, d.headers.tcp? = some syn := ⟨_, rfl⟩
  obtain ⟨sent, x, hhandle, htold, -⟩ := htcp 100 d syn hd (by cases hd; decide +kernel)
    (by decide +kernel)
  obtain ⟨rfl, p, rfl, hrefusal⟩ := htold (by decide +kernel) rfl
  exact ⟨by decide +kernel, by decide +kernel, ⟨syn, p, hd, hrefusal, hhandle⟩,
    (hudp Sample.calls Sample.stranger (by decide +kernel)).1⟩

/-- Where nobody takes the RST, or it does not fit, the flow is not refused to the device, and it is
not its own fault that is told.  Nothing at all is told of a SYN that is an ACK or an RST as well,
which asks for no flow. -/
theorem unopened_unanswered :
    let d := Tcp.Engine.Sample.datagram Flag.syn 7 []
    let e := Tcp.Engine.empty Tcp.Engine.Sample.config false
    let small := Tcp.Engine.empty { Tcp.Engine.Sample.config with mtu := 39 } false
    let gone : Surroundings := { Sample.unprotected with deviceOpen := false }
    d.headers.tcp?.any (fun syn => syn.isSyn && !syn.isAck && !syn.isRst) = true ∧
      e.store.table.peek? ⟨d.destination, d.source.port⟩ = none ∧
      gone.socket = .error (.outside .permissionDenied "not protected") ∧
      (e.handle gone 100 d).2 = .error .deviceStopped ∧ (e.handle gone 100 d).1.outbox = [] ∧
      (small.handle Sample.unprotected 100 d).2 = .error (.packet .bufferTooSmall) ∧
      (small.handle Sample.unprotected 100 d).1.outbox = [] ∧
      ∀ flag ∈ [Flag.ack, Flag.rst],
        let both := Tcp.Engine.Sample.datagram (Flag.syn ||| flag) 7 []
        both.headers.tcp?.any (·.isSyn) = true ∧
          (e.handle Sample.unprotected 100 both).2 = .ok () ∧
          (e.handle Sample.unprotected 100 both).1.outbox = [] := by
  decide +kernel

end Engines

end FlowRelay
