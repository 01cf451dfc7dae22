import FlowRelay.Proofs.Tcp.Moves

/-!
# FlowRelay.Proofs.Tcp.Sending

When a packet for the device is really sent.

1. *Sending* (`Sends`): which packets an engine has sent since it was seen last, and that it has
   sent no others.
2. *Success* (`heard_of_room`): a response is heard if its template is one of TCP, the buffer has
   room for it and somebody takes it.
3. *Room* (`room_of_sent`): a connection that was ever heard of has buffers with room.
-/

namespace FlowRelay.Tcp.Engine

open Packet

variable {e e' e'' : Engine} {s : Surroundings} {k : Flow.Key} {id : Nat} {c : Connection}
  {t : Packet.Tcp} {replies more : List Reply}

/-! ## Sending -/

/-- The engine has sent these packets on a connection since, and no others on any. -/
def Sends (e e' : Engine) (id : Nat) (replies : List Reply) : Prop :=
  ∃ packets, e'.outbox = e.outbox ++ packets ∧
    packets.map (fun p => (p.connection, Reply.ofBytes? p.buffer)) =
      replies.map fun r => (some id, some r)

namespace Sends

theorem of_outbox_eq (h : e'.outbox = e.outbox) (id : Nat) : e.Sends e' id [] :=
  ⟨[], by rw [h, List.append_nil], rfl⟩

theorem trans (h : e.Sends e' id replies) (h' : e'.Sends e'' id more) :
    e.Sends e'' id (replies ++ more) := by
  obtain ⟨packets, houtbox, hread⟩ := h
  obtain ⟨packets', houtbox', hread'⟩ := h'
  refine ⟨packets ++ packets', ?_, ?_⟩
  · rw [houtbox', houtbox, List.append_assoc]
  · rw [List.map_append, List.map_append, hread, hread']

/-- What changes beside the packets does not matter. -/
theorem silent (h : e.Sends e' id replies) (hsame : e''.outbox = e'.outbox) :
    e.Sends e'' id replies := by
  have hboth := h.trans (.of_outbox_eq hsame id)
  rwa [List.append_nil] at hboth

/-- Acts send the packets of their connection. -/
theorem carryOut (hc : e.store.connection? id = some c) (acts : List Act)
    (hread : (c.packets e.config acts).map Reply.ofBytes? = replies.map some) :
    e.Sends (e.carryOut id acts) id replies := by
  have hnumbered := congrArg (List.map fun r => (some id, r)) hread
  rw [List.map_map, List.map_map] at hnumbered
  refine ⟨_, outbox_carryOut hc acts, ?_⟩
  rw [List.map_map]
  exact hnumbered

end Sends

/-! ## Success -/

/-- There is a packet for a response if its template is one of TCP and there is room for it. -/
theorem exists_packet_of_room {config : Config} (ht : c.template.transport = .tcp t)
    (payload : List UInt8) (hroom : Headers.tcpPayloadOffset + payload.length ≤ config.mtu)
    (hlength : Headers.tcpPayloadOffset + payload.length ≤ 65535) (flags : UInt8) :
    ∃ packet, c.packet? config flags payload = some packet := by
  have hblank : (List.replicate config.mtu (0 : UInt8)).length = config.mtu :=
    List.length_replicate
  have hstaged : (Bytes.overwrite (List.replicate config.mtu 0) Headers.tcpPayloadOffset
      payload).length = config.mtu := by
    rw [Bytes.length_overwrite (by omega), hblank]
  refine ⟨_, Connection.packet?_of_ok (n := Headers.tcpPayloadOffset + payload.length) (by omega)
    ?_⟩
  rw [Connection.written, Headers.writeTcpResponse_eq ht (by omega) hlength]

/-- A response that there is room for is heard where somebody takes it. -/
theorem heard_of_room {config : Config} (ht : c.template.transport = .tcp t)
    (payload : List UInt8) (hroom : Headers.tcpPayloadOffset + payload.length ≤ config.mtu)
    (hlength : Headers.tcpPayloadOffset + payload.length ≤ 65535) (s : Surroundings)
    (flags : UInt8) : c.heard config s flags payload = s.deviceOpen := by
  obtain ⟨packet, hpacket⟩ := exists_packet_of_room ht payload hroom hlength flags
  rw [Connection.heard, hpacket, Option.isSome_some, Bool.and_true]

/-! ## Room -/

/-- Whoever has sent a packet has buffers with room for its headers. -/
def Roomy (e : Engine) : Prop := e.outbox ≠ [] → Headers.tcpPayloadOffset ≤ e.config.mtu

theorem Roomy.move (h : e.Roomy) (hmove : Move k e e') : e'.Roomy := by
  cases hmove with
  | @act id a howns =>
      intro hsent
      rw [config_perform]
      rw [outbox_perform] at hsent
      cases hpacket : a.packet? e.config (e.store.connection? id) with
      | none =>
          rw [hpacket] at hsent
          exact h (by simpa using hsent)
      | some packet =>
          cases a with
          | say flags payload =>
              obtain ⟨c, -, hc⟩ := Option.bind_eq_some_iff.mp hpacket
              exact Nat.le_trans (Nat.le_add_right _ _) (Connection.packet?_eq_some hc).1
          | advance | terminate | inspect | hand | begin | finish => contradiction
  | refuse hflow hroom => exact fun _ => hroom
  | find | openNew => exact h

theorem Roomy.moves (h : e.Roomy) (hmoves : Moves k e e') : e'.Roomy := by
  induction hmoves with
  | refl => exact h
  | tail _ hmove ih => exact ih.move hmove

theorem Coherent.roomy_step (h : e.Coherent) (hroomy : e.Roomy) (s : Surroundings)
    (event : Event) : (e.step s event).Roomy := by
  rcases h.step_cases s event with ⟨k, hmoves⟩ | hall | hsame
  · exact hroomy.moves hmoves
  · rw [hall]
    exact hroomy
  · rwa [hsame]

theorem roomy_run (config : Config) (inspecting : Bool) (steps : List (Surroundings × Event)) :
    ((empty config inspecting).run steps).Roomy := by
  induction steps using List.reverseRecOn with
  | nil => exact fun hsent => absurd rfl hsent
  | append_singleton steps x ih =>
      rw [run_concat]
      exact (coherent_run config inspecting steps).roomy_step ih x.1 x.2

/-- A connection that the device has heard of has buffers with room for headers. -/
theorem Roomy.of_sent (h : e.Roomy) (hsent : e.sent id ≠ []) :
    Headers.tcpPayloadOffset ≤ e.config.mtu := by
  refine h fun hnone => hsent ?_
  rw [sent, hnone]
  rfl

end FlowRelay.Tcp.Engine
