import FlowRelay.Proofs.Relay.Answers
import FlowRelay.Proofs.Udp.Reception

/-!
# FlowRelay.Proofs.Relay.Truncation

What becomes of a datagram of the network that is larger than what the device can take.

1. *Cuts* (`received_cut`): for every setup that can be had, each datagram that is read on an open
   connection becomes one packet, with all of its payload exactly if that fits behind the headers,
   and with the front of it otherwise.  The packet is well formed and does not show that it was cut.
2. *A shortened datagram* (`received_shortened`): one byte too many is enough.
-/

namespace FlowRelay.Udp.Dispatch

open Packet

variable {choices : Command.Choices} {lookup : Net.Lookup} {setup : Command.Setup}
  {steps : List (Surroundings × Event)} {s : Surroundings} {id : Nat} {c : Connection}

/-- **Cuts**: a datagram that is read on an open connection becomes one packet that goes back the
way the flow came, with as much of the datagram as fits behind the headers. -/
theorem received_cut (hvalid : choices.validate lookup = .ok setup)
    (hc : ((empty setup.config).run steps).engine.store.connection? id = some c)
    (hopen : c.closed = false)
    (hread : ((empty setup.config).run steps).engine.tasks.contains ⟨id⟩ = true)
    (hdevice : s.deviceOpen = true) (data : List UInt8) :
    let p := (empty setup.config).run steps
    let room := setup.config.mtu - Headers.udpPayloadOffset
    ∃ s₀ d packet, (empty setup.config).Opened steps id s₀ d ∧
      (p.step s (.own (.received id (.ok data)))).engine.outbox = p.engine.outbox ++ [packet] ∧
      packet.connection = some id ∧
      packet.Conveys d.destination d.source (data.take room) ∧
      (data.take room = data ↔ Headers.udpPayloadOffset + data.length ≤ setup.config.mtu) := by
  intro p room
  obtain ⟨-, hmin, hmax⟩ := Command.Choices.validate_ok hvalid
  have hcoherent : p.engine.Coherent := (coherent_run setup.config steps).engine
  have hmtu : p.engine.config.mtu = setup.config.mtu :=
    congrArg Config.mtu (config_run setup.config steps)
  have hroom : p.engine.readRoom = room := by rw [Engine.readRoom, hmtu]
  have hlow : Headers.udpPayloadOffset ≤ p.engine.config.mtu :=
    hmtu ▸ Nat.le_trans (by decide) hmin
  have hlength : (data.take p.engine.readRoom).length ≤ p.engine.readRoom :=
    List.length_take_le _ _
  have hhigh : Headers.udpPayloadOffset + (data.take p.engine.readRoom).length ≤ 65535 := by
    have hbound : p.engine.config.mtu ≤ 65535 := hmtu ▸ Nat.le_trans hmax (by decide)
    rw [Engine.readRoom] at hlength ⊢
    omega
  obtain ⟨packet, houtbox, hid, hconveys⟩ :=
    hcoherent.outbox_step_received hc hopen hread hdevice hlow data hhigh
  obtain ⟨s₀, d, hopens, hopened⟩ := exists_opened hc
  rw [hopened.source_eq, hopened.destination_eq, hroom] at hconveys
  refine ⟨s₀, d, packet, hopens, houtbox, hid, hconveys, ?_⟩
  rw [← hroom, Engine.take_readRoom_iff hlow, hmtu]

/-! ## A shortened datagram -/

namespace Sample

open Tcp.Engine.Sample (surroundings)

/-- A datagram of the device opens a connection. -/
def opening : List (Surroundings × Event) :=
  [(surroundings, .own (.datagram Engines.Sample.calls (Engines.Sample.datagram [0x70])))]

/-- A datagram of the network that is one byte larger than fits the smallest packets. -/
def large : List UInt8 := List.replicate 549 0x61

end Sample

/-- The device gets the front of a datagram that does not fit, in a packet that is well formed, and
no packet with the datagram. -/
theorem received_shortened :
    ∃ setup, Engines.Sample.choices.validate Engines.Sample.names = .ok setup ∧
      let p := (empty setup.config).run Sample.opening
      ∃ packet, (p.step Tcp.Engine.Sample.surroundings
          (.own (.received 0 (.ok Sample.large)))).engine.outbox = [packet] ∧
        packet.Conveys Tcp.Engine.Sample.target ⟨⟨10, 0, 0, 2⟩, 5000⟩ (Sample.large.take 548) ∧
        ∀ source destination, ¬ packet.Conveys source destination Sample.large := by
  obtain ⟨setup, hvalid, hconfig⟩ : ∃ setup,
      Engines.Sample.choices.validate Engines.Sample.names = .ok setup ∧
        setup.config = Engines.Sample.choices.config := ⟨_, rfl, rfl⟩
  refine ⟨setup, hvalid, ?_⟩
  rw [hconfig]
  intro p
  have hcoherent : p.engine.Coherent := (coherent_run _ Sample.opening).engine
  obtain ⟨c, hc, hopen, hsource, hdestination⟩ : ∃ c, p.engine.store.connection? 0 = some c ∧
      c.closed = false ∧ c.template.source = Tcp.Engine.Sample.target ∧
      c.template.destination = ⟨⟨10, 0, 0, 2⟩, 5000⟩ := ⟨_, rfl, rfl, rfl, rfl⟩
  have hread : p.engine.tasks.contains ⟨0⟩ = true := by decide +kernel
  have hroom : p.engine.readRoom = 548 := by decide +kernel
  have hempty : p.engine.outbox = [] := by decide +kernel
  obtain ⟨packet, houtbox, -, hconveys⟩ := hcoherent.outbox_step_received
    (s := Tcp.Engine.Sample.surroundings) hc hopen hread rfl (by decide +kernel) Sample.large
    (by rw [hroom]; decide +kernel)
  rw [hempty] at houtbox
  rw [hsource, hdestination, hroom] at hconveys
  refine ⟨packet, houtbox, hconveys, fun source destination hwhole => ?_⟩
  have hlength := congrArg List.length (hconveys.payload_eq hwhole)
  exact absurd hlength (by decide +kernel)

/-- A datagram that is one byte too large is cut. -/
theorem received_cut_large :
    ∃ setup, Engines.Sample.choices.validate Engines.Sample.names = .ok setup ∧
      let p := (empty setup.config).run Sample.opening
      (∃ c, p.engine.store.connection? 0 = some c ∧ c.closed = false) ∧
      p.engine.tasks.contains ⟨0⟩ = true ∧
      Tcp.Engine.Sample.surroundings.deviceOpen = true ∧
      ∃ s₀ d packet, (empty setup.config).Opened Sample.opening 0 s₀ d ∧
        (p.step Tcp.Engine.Sample.surroundings
          (.own (.received 0 (.ok Sample.large)))).engine.outbox =
            p.engine.outbox ++ [packet] ∧
        packet.Conveys d.destination d.source (Sample.large.take 548) ∧
        Sample.large.take 548 ≠ Sample.large := by
  obtain ⟨setup, hvalid, hconfig⟩ : ∃ setup,
      Engines.Sample.choices.validate Engines.Sample.names = .ok setup ∧
        setup.config = Engines.Sample.choices.config := ⟨_, rfl, rfl⟩
  have hmtu : setup.config.mtu - Headers.udpPayloadOffset = 548 := by
    rw [hconfig]
    rfl
  obtain ⟨c, hc, hopen⟩ : ∃ c,
      ((empty setup.config).run Sample.opening).engine.store.connection? 0 = some c ∧
        c.closed = false := by
    rw [hconfig]
    exact ⟨_, rfl, rfl⟩
  have hread : ((empty setup.config).run Sample.opening).engine.tasks.contains ⟨0⟩ = true := by
    rw [hconfig]
    decide +kernel
  obtain ⟨s₀, d, packet, hopened, houtbox, -, hconveys, -⟩ := received_cut hvalid hc hopen hread
    (s := Tcp.Engine.Sample.surroundings) rfl Sample.large
  rw [hmtu] at hconveys
  exact ⟨setup, hvalid, ⟨c, hc, hopen⟩, hread, rfl, s₀, d, packet, hopened, houtbox, hconveys,
    by decide +kernel⟩

end FlowRelay.Udp.Dispatch
