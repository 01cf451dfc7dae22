import FlowRelay.Command.Choices
import FlowRelay.Proofs.Relay.Isolation
import FlowRelay.Proofs.Tcp.Answers
import FlowRelay.Proofs.Udp.Answers

/-!
# FlowRelay.Proofs.Relay.Answers

Everything that the engines send to the device is well formed and goes back the way its flow came,
for every setup that can be had.
-/

namespace FlowRelay

/-- Whatever the lookup of the proxy finds, the relay is set up with what is asked for, and only a
packet size in range is accepted. -/
theorem Command.Choices.validate_ok {choices : Command.Choices} {lookup : Net.Lookup}
    {setup : Command.Setup} (h : choices.validate lookup = .ok setup) :
    setup.config = choices.config ∧
      Command.minMtu ≤ setup.config.mtu ∧ setup.config.mtu ≤ Command.maxMtu := by
  unfold validate at h
  split at h
  · contradiction
  split at h
  · contradiction
  split at h
  · contradiction
  split at h
  · contradiction
  next hmtu =>
  split at h
  · contradiction
  · cases hforward : readForward lookup choices.forward with
    | error refusal =>
        rw [hforward] at h
        contradiction
    | ok forward =>
        rw [hforward] at h
        cases h
        refine ⟨rfl, ?_⟩
        simp only [config]
        omega

namespace Engines

/-- **Answers**: whatever the proxy is, wherever its host is found and whichever sockets cannot be
had, every packet for the device fits it, is read, verifies, comes from where the first packet of
its flow was sent to, and goes to where that came from.  Each step adds to the packets at most the
one that it writes into a buffer of the pool, and writing it never fails. -/
theorem run_answers {choices : Command.Choices} {lookup : Net.Lookup} {setup : Command.Setup}
    (hvalid : choices.validate lookup = .ok setup) (inspecting : Bool)
    (steps : List (Surroundings × Event)) (uses : List Pool.Use) :
    let mtu := setup.config.mtu
    let start := empty setup.config inspecting
    let e := start.run steps
    let buffer := ((Pool.empty mtu).useAll uses).acquire.2
    (∀ p ∈ e.tcp.outbox, ∃ d,
      start.tcp.Asked (tcpSteps steps) p.connection d ∧ p.IsAnswer mtu d) ∧
    (∀ p ∈ e.udp.outbox, ∃ id d, p.connection = some id ∧
      start.udp.Asked (udpSteps steps) id d ∧ p.IsAnswer mtu d) ∧
    (∀ s event,
      (e.tcp.step s event).outbox = e.tcp.outbox ++ e.tcp.outgoing s (e.tcp.response? s event) ∧
      ∀ r, e.tcp.response? s event = some r → ∃ n, (r.write buffer).result = .ok n) ∧
    (∀ s event,
      (e.udp.step s event).outbox = e.udp.outbox ++ e.udp.outgoing s (e.udp.response? event) ∧
      ∀ r, e.udp.response? event = some r → ∃ n, (r.write buffer).result = .ok n) ∧
    buffer = e.tcp.blank ∧ buffer = List.replicate e.udp.config.mtu 0 := by
  intro mtu start e buffer
  obtain ⟨-, hmin, hmax⟩ := Command.Choices.validate_ok hvalid
  have htcp : e.tcp = (Tcp.Engine.empty setup.config inspecting).run (tcpSteps steps) :=
    tcp_run start steps
  have hudp : e.udp = (Udp.Engine.empty setup.config).run (udpSteps steps) := udp_run start steps
  have htcpMin : Packet.Headers.tcpPayloadOffset ≤ setup.config.mtu :=
    Nat.le_trans (by decide) hmin
  have hudpMin : Packet.Headers.udpPayloadOffset ≤ setup.config.mtu :=
    Nat.le_trans (by decide) hmin
  have hbuffer : buffer = List.replicate mtu 0 := (Pool.Clean.empty _).acquire_useAll uses
  have hblank : e.tcp.blank = List.replicate mtu 0 := by
    rw [Tcp.Engine.blank, htcp, Tcp.Engine.config_run]
  have hconfig : e.udp.config = setup.config := by rw [hudp, Udp.Engine.config_run]
  refine ⟨fun p hp => ?_, fun p hp => ?_, fun s event => ⟨e.tcp.outbox_step s event, ?_⟩,
    fun s event => ⟨e.udp.outbox_step s event, ?_⟩, hbuffer.trans hblank.symm,
    by rw [hbuffer, hconfig]⟩
  · exact Tcp.Engine.isAnswer_of_mem_outbox htcpMin hmax (htcp ▸ hp)
  · exact Udp.Engine.isAnswer_of_mem_outbox hudpMin hmax (hudp ▸ hp)
  · intro r hr
    rw [htcp] at hr hblank
    obtain ⟨d, n, -, hn, -⟩ := Tcp.Engine.exists_answer htcpMin hmax hr
    rw [hblank, ← hbuffer] at hn
    exact ⟨n, hn⟩
  · intro r hr
    rw [hudp] at hr
    obtain ⟨d, n, -, hn, -⟩ := Udp.Engine.exists_answer hudpMin hmax hr
    rw [hbuffer]
    exact ⟨n, hn⟩

/-! ## A sample -/

namespace Sample

open Packet

/-- The smallest packets that may be asked for, and a proxy at a host that is given by its name. -/
def choices : Command.Choices :=
  { verbose := false, trace := false, interface := "tun0", address := "10.0.0.1/24", mtu := 576
    capacity := 2, tcpIdle := 120, udpIdle := 60, eofIdle := 30, writeTimeout := 10, fwmark := none
    forward := some "localhost:3128", forwardPort := 80, inspect := [] }

/-- A system that knows itself by name, by an IPv6 address and an IPv4 one. -/
def names : Net.Lookup := fun text =>
  if text = "localhost".toList then .ok [.ipv6, .ipv4 ⟨127, 0, 0, 1⟩] else Net.Lookup.numeric text

/-- No socket can be had. -/
def starved : Surroundings :=
  { Tcp.Engine.Sample.surroundings with socket := .error .notConnected }

/-- A SYN is refused, the next one opens a connection that is answered with data, and so is a
datagram. -/
def dialogue : List (Surroundings × Event) :=
  (starved, .tcp (.segment 100 (Tcp.Engine.Sample.datagram Flag.syn 7 []))) ::
    [.tcp (.segment 200 (Tcp.Engine.Sample.datagram Flag.syn 8 [])),
      .tcp (.connected 0 Tcp.Engine.Sample.target (.ok ())), .tcp (.received 0 (.ok [1, 2])),
      .udp (.datagram calls (datagram [3])), .udp (.received 0 (.ok [4]))].map
        (Tcp.Engine.Sample.surroundings, ·)

end Sample

/-- A RST, a SYN with an ACK, data and a datagram are answers. -/
theorem answers_of_sample :
    ∃ setup, Sample.choices.validate Sample.names = .ok setup ∧
      let e := (empty setup.config false).run Sample.dialogue
      e.tcp.outbox.map (·.connection) = [none, some 0, some 0] ∧
      e.udp.outbox.map (·.connection) = [some 0] ∧
      (∀ p ∈ e.tcp.outbox, ∃ d, p.IsAnswer 576 d) ∧ ∀ p ∈ e.udp.outbox, ∃ d, p.IsAnswer 576 d := by
  obtain ⟨setup, hvalid, hconfig⟩ : ∃ setup, Sample.choices.validate Sample.names = .ok setup ∧
      setup.config = Sample.choices.config := ⟨_, rfl, rfl⟩
  obtain ⟨htcp, hudp, -⟩ := run_answers hvalid false Sample.dialogue []
  have hmtu : setup.config.mtu = 576 := congrArg Config.mtu hconfig
  rw [hmtu] at htcp hudp
  refine ⟨setup, hvalid, ?_, ?_, fun p hp => ?_, fun p hp => ?_⟩
  · rw [hconfig]
    decide +kernel
  · rw [hconfig]
    decide +kernel
  · obtain ⟨d, -, hanswer⟩ := htcp p hp
    exact ⟨d, hanswer⟩
  · obtain ⟨id, d, -, -, hanswer⟩ := hudp p hp
    exact ⟨d, hanswer⟩

end Engines

end FlowRelay
