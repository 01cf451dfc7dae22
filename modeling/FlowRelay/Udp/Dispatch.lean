import FlowRelay.Udp.Engine

/-!
# FlowRelay.Udp.Dispatch

Handling a datagram of the device in two steps: its connection is found or opened, and the datagram
is handed to the socket at some later time, while other steps may come in between.
-/

namespace FlowRelay.Udp

open Packet

namespace Engine

/-- Find or open the connection of a datagram, which tells where the datagram is to be sent. -/
def accept (e : Engine) (s : Surroundings) (calls : SocketCalls) (d : Datagram) :
    Engine × Option Nat :=
  match d.headers.udp? with
  | none => (e, none)
  | some _ =>
    match e.store.find? ⟨d.destination, d.source.port⟩ with
    | (store, some id) => ({ e with store }, some id)
    | (_, none) =>
      match e.openConnection s calls ⟨d.destination, d.source.port⟩ d.headers with
      | (e, .ok id) => (e, some id)
      | (e, .error _) => (e, none)

end Engine

/-- A datagram that is on its way to the socket of a connection. -/
structure Sending where
  connection : Nat
  payload : List UInt8
  deriving DecidableEq, Repr

/-- The engine, with the datagrams that are on their way. -/
structure Dispatch where
  engine : Engine
  sends : List Sending

namespace Dispatch

/-- Nothing has happened yet. -/
def empty (config : Config) : Dispatch := ⟨.empty config, []⟩

/-- What makes the engine take a step. -/
inductive Event where
  /-- A datagram of the device is to be sent. -/
  | accept (calls : SocketCalls) (d : Datagram)
  /-- A datagram is sent, or cannot be. -/
  | sent (x : Sending) (calls : SocketCalls)
  /-- The engine takes a step of its own, which may handle a datagram as a whole. -/
  | own (event : Engine.Event)

/-- Take a step.  A send ends only where it is under way. -/
def step (p : Dispatch) (s : Surroundings) : Event → Dispatch
  | .accept calls d =>
    match p.engine.accept s calls d with
    | (engine, some id) => ⟨engine, p.sends ++ [⟨id, d.payload⟩]⟩
    | (engine, none) => ⟨engine, p.sends⟩
  | .sent x calls =>
    if p.sends.contains x then
      ⟨p.engine.forward s calls x.connection x.payload, p.sends.erase x⟩
    else p
  | .own event => ⟨p.engine.step s event, p.sends⟩

/-- Take steps one after the other. -/
def run (p : Dispatch) (steps : List (Surroundings × Event)) : Dispatch :=
  steps.foldl (fun p (s, event) => p.step s event) p

end Dispatch

end FlowRelay.Udp
