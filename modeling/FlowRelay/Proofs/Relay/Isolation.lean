import FlowRelay.Proofs.Pool.Blank
import FlowRelay.Proofs.Relay.Engines
import FlowRelay.Proofs.Tcp.Isolation
import FlowRelay.Proofs.Tcp.Run
import FlowRelay.Proofs.Udp.Isolation

/-!
# FlowRelay.Proofs.Relay.Isolation

Flows do not interfere.  What a run of both engines shows of a flow is what the steps about the flow
do without all others, as long as no connection comes that its table has no room for.
-/

namespace FlowRelay.Engines

/-- The steps of a run that are about a flow of the TCP engine, for engines in which there is
nothing else. -/
def tcpKept (k : Flow.Key) (e : Engines) (steps : List (Surroundings × Event)) :
    List (Surroundings × Event) :=
  (Tcp.Engine.machine.kept k e.tcp (tcpSteps steps)).map fun (s, event) => (s, .tcp event)

/-- The steps of a run that are about a flow of the UDP engine, for engines in which there is
nothing else. -/
def udpKept (k : Flow.Key) (e : Engines) (steps : List (Surroundings × Event)) :
    List (Surroundings × Event) :=
  (Udp.Engine.machine.kept k e.udp (udpSteps steps)).map fun (s, event) => (s, .udp event)

/-- In no step of a run a connection comes that its table has no room for. -/
def NeverOverflows (e : Engines) (steps : List (Surroundings × Event)) : Prop :=
  Tcp.Engine.machine.NeverOverflows e.tcp (tcpSteps steps) ∧
    Udp.Engine.machine.NeverOverflows e.udp (udpSteps steps)

instance (e : Engines) (steps : List (Surroundings × Event)) : Decidable (e.NeverOverflows steps) :=
  inferInstanceAs (Decidable (_ ∧ _))

@[simp] theorem tcpSteps_tcpKept (k : Flow.Key) (e : Engines)
    (steps : List (Surroundings × Event)) :
    tcpSteps (tcpKept k e steps) = Tcp.Engine.machine.kept k e.tcp (tcpSteps steps) := by
  rw [tcpKept, tcpSteps, List.filterMap_map]
  exact List.filterMap_some

@[simp] theorem udpSteps_udpKept (k : Flow.Key) (e : Engines)
    (steps : List (Surroundings × Event)) :
    udpSteps (udpKept k e steps) = Udp.Engine.machine.kept k e.udp (udpSteps steps) := by
  rw [udpKept, udpSteps, List.filterMap_map]
  exact List.filterMap_some

/-- **Isolation**: in a run in which no table overflows, the packets to the device, the data for the
outbound sockets, the bodies and the connections of a flow are those of the run that is left without
the steps about all other flows.  The engines write their packets into buffers that they share: one
is blank whatever it was used for before. -/
theorem run_isolated (config : Config) (inspecting : Bool) {steps : List (Surroundings × Event)}
    (h : (empty config inspecting).NeverOverflows steps) (k : Flow.Key) (uses : List Pool.Use) :
    let start := empty config inspecting
    let e := start.run steps
    let buffer := ((Pool.empty config.mtu).useAll uses).acquire.2
    e.tcp.Matches k (start.run (tcpKept k start steps)).tcp ∧
      e.udp.Matches k (start.run (udpKept k start steps)).udp ∧
      buffer = e.tcp.blank ∧ buffer = List.replicate e.udp.config.mtu 0 := by
  intro start e buffer
  have hbuffer : buffer = List.replicate config.mtu 0 := (Pool.Clean.empty _).acquire_useAll uses
  refine ⟨?_, ?_, ?_, ?_⟩
  · have honly := (Tcp.Engine.isolates k).run (.empty config inspecting) h.1
    rw [Tcp.Engine.only_empty] at honly
    have hsame : e.tcp.only k = (start.run (tcpKept k start steps)).tcp := by
      rw [tcp_run, tcp_run, tcpSteps_tcpKept]
      exact honly
    exact hsame ▸ e.tcp.matches_only k
  · have honly := (Udp.Engine.isolates k).run (.empty config) h.2
    rw [Udp.Engine.only_empty] at honly
    have hsame : e.udp.only k = (start.run (udpKept k start steps)).udp := by
      rw [udp_run, udp_run, udpSteps_udpKept]
      exact honly
    exact hsame ▸ e.udp.matches_only k
  · have hconfig : e.tcp.config = config :=
      (congrArg Tcp.Engine.config (tcp_run start steps)).trans (Tcp.Engine.config_run _ _ _)
    rw [hbuffer, Tcp.Engine.blank, hconfig]
  · have hconfig : e.udp.config = config :=
      (congrArg Udp.Engine.config (udp_run start steps)).trans (Udp.Engine.config_run _ _)
    rw [hbuffer, hconfig]

/-! ## A sample -/

namespace Sample

open Tcp.Engine.Sample (config surroundings target)

/-- A segment of another flow of the device. -/
def other (flags : UInt8) (sequence : UInt32) : Packet.Datagram :=
  { Tcp.Engine.Sample.datagram flags sequence [] with
    headers := .tcp ⟨⟨10, 0, 0, 2⟩, 5001⟩ target flags sequence 0 }

/-- A datagram of the device. -/
def datagram (payload : List UInt8) : Packet.Datagram :=
  { buffer := List.replicate Packet.Headers.udpPayloadOffset 0 ++ payload
    headers := .udp ⟨⟨10, 0, 0, 2⟩, 5000⟩ target
    span := ⟨Packet.Headers.udpPayloadOffset, Packet.Headers.udpPayloadOffset + payload.length⟩ }

/-- The socket takes a datagram. -/
def calls : Udp.SocketCalls := ⟨fun _ => .ok (), .ok ()⟩

/-- A TCP connection is refused while another one is set up, and a datagram is answered. -/
def steps : List (Surroundings × Event) :=
  [(surroundings, .tcp (.segment 100 (Tcp.Engine.Sample.datagram Packet.Flag.syn 7 []))),
    (surroundings, .tcp (.segment 200 (other Packet.Flag.syn 9))),
    (surroundings, .udp (.datagram calls (datagram [1, 2]))),
    (surroundings, .tcp (.connected 1 target (.error .notConnected))),
    (surroundings, .udp (.received 0 (.ok [3]))),
    (surroundings, .tcp (.connected 0 target (.ok ())))]

/-- The flow that is set up, and that of the datagram. -/
def flow : Flow.Key := ⟨target, 5000⟩

end Sample

/-- The flow that is set up does not notice the refused one. -/
theorem isolated_of_sample :
    let start := empty Tcp.Engine.Sample.config false
    let e := start.run Sample.steps
    start.NeverOverflows Sample.steps ∧
      e.tcp.Matches Sample.flow (start.run (tcpKept Sample.flow start Sample.steps)).tcp ∧
      e.udp.Matches Sample.flow (start.run (udpKept Sample.flow start Sample.steps)).udp ∧
      e.tcp.outbox.length = 2 ∧ (tcpKept Sample.flow start Sample.steps).length = 2 ∧
      (udpKept Sample.flow start Sample.steps).length = 2 := by
  intro start e
  have hroom : start.NeverOverflows Sample.steps := by decide +kernel
  obtain ⟨htcp, hudp, -⟩ := run_isolated _ _ hroom Sample.flow []
  exact ⟨hroom, htcp, hudp, by decide +kernel, by decide +kernel, by decide +kernel⟩

end FlowRelay.Engines
