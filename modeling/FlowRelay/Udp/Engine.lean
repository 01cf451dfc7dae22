import FlowRelay.Udp.Connection

/-!
# FlowRelay.Udp.Engine

The UDP engine: every flow of the device has a connected outbound socket of its own.

The engine is a transition system, like the one for TCP.  The first datagram of a flow opens its
connection; if that fails the datagram is dropped.  Every datagram is handed to the socket of its
flow, and every datagram that the socket receives is sent to the device.
-/

namespace FlowRelay.Udp

open Packet

/-- Work under way outside the engine: a read of a connection. -/
structure Task where
  connection : Nat
  deriving DecidableEq, Repr

/-- How the calls on sockets end that handling a datagram makes. -/
structure SocketCalls where
  connect : Net.Endpoint → Except Fault Unit
  send : Except Fault Unit

/-- The engine between two steps. -/
structure Engine where
  config : Config
  /-- Every connection that was ever opened, and the table of the open ones. -/
  store : Flow.Store Connection
  tasks : List Task
  /-- The packets sent to the device, in order. -/
  outbox : List Outgoing
  /-- The datagrams handed to outbound sockets, in order. -/
  handed : List Handed
  deriving Repr

namespace Engine

/-- An engine that has not seen anything yet. -/
def empty (config : Config) : Engine :=
  { config, store := .empty config.capacity, tasks := [], outbox := [], handed := [] }

/-! ## Connections -/

/-- Change a connection. -/
def update (e : Engine) (id : Nat) (f : Connection → Connection) : Engine :=
  { e with store := e.store.update id f }

/-- Close a connection and take it out of the table, where a newer one of its flow stays. -/
def terminate (e : Engine) (id : Nat) : Engine := { e with store := e.store.terminate id }

/-! ## Datagrams from the device -/

/-- Open the connection of a flow.  It is known by its number also where nobody drives its reads. -/
def openConnection (e : Engine) (s : Surroundings) (calls : SocketCalls) (key : Flow.Key)
    (headers : Headers) : Engine × Except Fault Nat :=
  let target := s.proxy.resolve key.destination
  match s.socket, calls.connect target with
  | .error x, _ => (e, .error x)
  | .ok (), .error x => (e, .error x)
  | .ok (), .ok () =>
    let c := Connection.make key target headers.swap s.now
    let (store, id) := e.store.openNew s.now e.config.udpIdle c
    let e := { e with store }
    if s.multiplexerOpen then ({ e with tasks := e.tasks ++ [⟨id⟩] }, .ok id)
    else (e, .error .multiplexerStopped)

/-- Hand a datagram to the socket of a connection. -/
def forward (e : Engine) (s : Surroundings) (calls : SocketCalls) (id : Nat)
    (payload : List UInt8) : Engine :=
  match calls.send with
  | .error _ => e.terminate id
  | .ok () =>
    let e := e.update id fun c =>
      { c with lastActive := s.now, bytesWritten := c.bytesWritten + payload.length }
    { e with handed := e.handed ++ [⟨id, payload⟩] }

/-- Take a packet from the device.  Whatever fails, the datagram is dropped and that is all. -/
def handle (e : Engine) (s : Surroundings) (calls : SocketCalls) (d : Datagram) : Engine :=
  match d.headers.udp? with
  | none => e
  | some _ =>
    let key : Flow.Key := ⟨d.destination, d.source.port⟩
    match e.store.find? key with
    | (store, some id) => { e with store }.forward s calls id d.payload
    | (_, none) =>
      match e.openConnection s calls key d.headers with
      | (e, .ok id) => e.forward s calls id d.payload
      | (e, .error _) => e

/-! ## Datagrams from the network -/

/-- How many bytes of a datagram a read returns. -/
def readRoom (e : Engine) : Nat := e.config.mtu - Headers.udpPayloadOffset

/-- Send a packet that was written into a buffer to the device; one that cannot be sent is lost. -/
def emit (e : Engine) (s : Surroundings) (id : Nat) (w : Written) : Engine :=
  match w.result with
  | .error _ => e
  | .ok n =>
    if s.deviceOpen then { e with outbox := e.outbox ++ [⟨some id, w.buffer.take n⟩] } else e

/-- A read of a connection ended with a datagram, of which the part counts that fits the buffer. -/
def received (e : Engine) (s : Surroundings) (id : Nat) (result : Except Fault (List UInt8)) :
    Engine :=
  match e.store.connection? id with
  | none => e
  | some c =>
    if c.closed then e
    else
      match result.map (·.take e.readRoom) with
      | .error _ => e.terminate id
      | .ok data =>
        let blank := List.replicate e.config.mtu 0
        let buffer := Bytes.overwrite blank Headers.udpPayloadOffset data
        let e := e.emit s id (c.template.writeUdpResponse buffer data.length)
        let e := e.update id fun c =>
          { c with lastActive := s.now, bytesRead := c.bytesRead + data.length }
        { e with tasks := e.tasks ++ [⟨id⟩] }

/-- Close every connection, telling how many there were. -/
def closeAll (e : Engine) : Engine × Nat :=
  let (store, count) := e.store.closeAll
  ({ e with store }, count)

/-! ## Steps -/

/-- What makes the engine take a step. -/
inductive Event where
  | datagram (calls : SocketCalls) (d : Datagram)
  | received (id : Nat) (result : Except Fault (List UInt8))
  /-- A read notices that its connection is closed. -/
  | abandoned (id : Nat)
  | closeAll

/-- Take a task out of those under way. -/
def finishTask (e : Engine) (id : Nat) : Engine := { e with tasks := e.tasks.erase ⟨id⟩ }

/-- Take a step.  A read ends only where it is under way, and is abandoned only by a closed
connection; the engine stays as it is otherwise. -/
def step (e : Engine) (s : Surroundings) : Event → Engine
  | .datagram calls d => e.handle s calls d
  | .received id result =>
    if e.tasks.contains ⟨id⟩ then (e.finishTask id).received s id result else e
  | .abandoned id => if e.store.isClosed id then e.finishTask id else e
  | .closeAll => e.closeAll.1

end Engine

end FlowRelay.Udp
