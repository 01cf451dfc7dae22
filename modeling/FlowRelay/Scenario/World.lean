import FlowRelay.Relay.Running
import FlowRelay.Scenario.Network

/-!
# FlowRelay.Scenario.World

A relay in a network, driven by events.  After an event the world settles: connects complete, queued
segments are written and data is read until nothing more happens, which makes every run the same.

Servers are reduced to what a relay can notice of them: the data that they have sent and that waits
to be read, whether their stream has ended or was reset, and the data that they have received.
-/

namespace FlowRelay.Scenario

/-- The far end of a TCP connection. -/
structure Peer where
  /-- What the server has sent and nobody has read yet. -/
  inbound : List UInt8
  ended : Bool
  reset : Bool
  /-- What the server has received since the last report. -/
  received : List UInt8

/-- The far end of a UDP connection. -/
structure Mailbox where
  /-- The datagrams, and errors, that wait to be read. -/
  inbound : List (Except Fault (List UInt8))
  /-- The datagrams that the server has received since the last report. -/
  received : List (List UInt8)

/-- A relay in its network. -/
structure World where
  network : Network
  relay : Relay
  /-- Whether the relay runs on a device; otherwise its engines are called directly. -/
  isRunning : Bool
  now : Instant
  proxy : Net.Proxy
  isProtected : Bool
  deviceOpen : Bool
  multiplexerOpen : Bool
  peers : List (Nat × Peer)
  mailboxes : List (Nat × Mailbox)
  /-- The TCP connections that have been noticed, by the name of their flow. -/
  tcpFlows : List (String × Nat)
  /-- The UDP connections that have been noticed, by the name of their flow. -/
  udpFlows : List (String × Nat)

/-- Bind a key to a value, replacing what it was bound to. -/
def bindKey {κ ν : Type} [DecidableEq κ] (bindings : List (κ × ν)) (key : κ) (value : ν) :
    List (κ × ν) :=
  bindings.filter (·.1 ≠ key) ++ [(key, value)]

namespace World

/-! ## Surroundings -/

/-- The initial sequence number of every connection. -/
def initialSequence : UInt32 := 0x12345678

/-- The fault of a socket that could not be protected. -/
def notProtected : Fault := .outside .permissionDenied "not protected"

/-- The fault of a connect that fails and of a stream that was reset. -/
def unreachable : Fault := .outside .other "unreachable"

/-- A relay that starts in a network, where nothing has happened yet. -/
def start (network : Network) (config : Config) (proxy : Net.Proxy)
    (isProtected inspecting isRunning : Bool) : World :=
  { network, relay := .start config inspecting, isRunning, now := 0, proxy, isProtected
    deviceOpen := true, multiplexerOpen := true, peers := [], mailboxes := [], tcpFlows := []
    udpFlows := [] }

/-- What surrounds the relay. -/
def surroundings (w : World) : Surroundings :=
  { now := w.now, proxy := w.proxy
    socket := if w.isProtected then .ok () else .error notProtected
    deviceOpen := w.deviceOpen, multiplexerOpen := w.multiplexerOpen }

/-- The UDP connection of a flow, if there is one. -/
def udpConnection? (w : World) (key : Flow.Key) : Option Nat := w.relay.udp.store.table.peek? key

/-- Whether an error waits at the socket of a flow. -/
def hasPendingError (w : World) (key : Flow.Key) : Bool :=
  match (w.udpConnection? key).bind fun id => w.mailboxes.lookup id with
  | some mailbox => mailbox.inbound.any fun r => r.toOption.isNone
  | none => false

/-- How the socket calls end that a datagram of a flow leads to. -/
def socketCalls (w : World) (key : Flow.Key) : Udp.SocketCalls :=
  { connect := fun _ => if w.network.isUp then .ok () else .error unreachable
    send := if w.hasPendingError key then .error unreachable else .ok () }

/-- Replace the TCP engine. -/
def setTcp (w : World) (e : Tcp.Engine) : World := { w with relay := { w.relay with tcp := e } }

/-- Replace the UDP engine. -/
def setUdp (w : World) (e : Udp.Engine) : World := { w with relay := { w.relay with udp := e } }

/-- Time goes on. -/
def tick (w : World) : World := { w with now := w.now + 1 }

/-! ## Settling -/

/-- How a task of the TCP engine ends now, if it can, with the far end that it leaves. -/
def finishTcp? (w : World) (task : Tcp.Task) : Option (Tcp.Engine.Event × Option Peer) :=
  let e := w.relay.tcp
  match e.store.connection? task.connection with
  | none => none
  | some c =>
    if c.closed then some (.abandoned task, none)
    else
      match task with
      | .connect id target =>
        if w.network.accepts target then
          some (.connected id target (.ok ()), some ⟨[], false, false, []⟩)
        else some (.connected id target (.error unreachable), none)
      | .read id =>
        match w.peers.lookup id with
        | none => none
        | some peer =>
          if peer.reset then some (.received id (.error unreachable), none)
          else if !peer.inbound.isEmpty then
            some (.received id (.ok peer.inbound),
              some { peer with inbound := peer.inbound.drop e.readRoom })
          else if peer.ended then some (.received id (.ok []), none)
          else none
      | .write id =>
        match c.writer.segments, w.peers.lookup id with
        | _ :: _, some peer =>
          some (.wrote id (if peer.reset then .error unreachable else .ok ()), none)
        | _, _ => none

/-- How a task of the UDP engine ends now, if it can, with the far end that it leaves. -/
def finishUdp? (w : World) (task : Udp.Task) : Option (Udp.Engine.Event × Option Mailbox) :=
  let id := task.connection
  match w.relay.udp.store.connection? id with
  | none => none
  | some c =>
    if c.closed then some (.abandoned id, none)
    else
      match w.mailboxes.lookup id with
      | some mailbox =>
        match mailbox.inbound with
        | result :: rest => some (.received id result, some { mailbox with inbound := rest })
        | [] => none
      | none => none

/-- Deliver the data that the TCP engine has handed to its sockets. -/
def deliverStreams (w : World) : World :=
  let e := w.relay.tcp
  let w := w.setTcp { e with handed := [] }
  e.handed.foldl (fun w h =>
    match w.peers.lookup h.connection with
    | none => w
    | some peer =>
      let peer := { peer with received := peer.received ++ h.payload }
      { w with peers := bindKey w.peers h.connection peer }) w

/-- Deliver the datagrams that the UDP engine has handed to its sockets. -/
def deliverDatagrams (w : World) : World :=
  let e := w.relay.udp
  let w := w.setUdp { e with handed := [] }
  e.handed.foldl (fun w h =>
    match e.store.connection? h.connection with
    | none => w
    | some c =>
      let mailbox := (w.mailboxes.lookup h.connection).getD ⟨[], []⟩
      let mailbox :=
        if w.network.rejects c.target then
          { mailbox with inbound := mailbox.inbound ++ [.error unreachable] }
        else { mailbox with received := mailbox.received ++ [h.payload] }
      { w with mailboxes := bindKey w.mailboxes h.connection mailbox }) w

/-- Finish the first task that can be finished, if there is one. -/
def settleOnce? (w : World) : Option World :=
  let w := w.tick
  let tcp := w.relay.tcp.tasks.findSome? fun task =>
    (w.finishTcp? task).map fun (event, peer?) =>
      let w := w.setTcp (w.relay.tcp.step w.surroundings event)
      match peer? with
      | some peer => { w with peers := bindKey w.peers task.connection peer }
      | none => w
  tcp.or <| w.relay.udp.tasks.findSome? fun task =>
    (w.finishUdp? task).map fun (event, mailbox?) =>
      let w := w.setUdp (w.relay.udp.step w.surroundings event)
      match mailbox? with
      | some mailbox => { w with mailboxes := bindKey w.mailboxes task.connection mailbox }
      | none => w

/-- Finish tasks until none can be finished. -/
def settleWithin : Nat → World → World
  | 0, w => w
  | fuel + 1, w =>
    match w.settleOnce? with
    | some w => settleWithin fuel w
    | none => w

/-- More than there is to do: every task, queued segment, waiting byte and waiting datagram leads to
a few ends of tasks at most. -/
def workLoad (w : World) : Nat :=
  let queued := (w.relay.tcp.store.connections.flatMap fun c => c.writer.segments).length
  let bytes := (w.peers.flatMap fun (_, p) => p.inbound).length
  let waiting := (w.mailboxes.flatMap fun (_, m) => m.inbound).length
  4 * (w.relay.tcp.tasks.length + w.relay.udp.tasks.length + queued + bytes + waiting + 1)

/-- Everything under way that can end ends. -/
def settle (w : World) : World :=
  let w := w.deliverDatagrams
  (settleWithin w.workLoad w).deliverStreams

/-! ## Flows -/

/-- The name of a flow. -/
def flowName (w : World) (key : Flow.Key) : String :=
  s!"{w.network.nameOf key.destination}:{key.sourcePort.toNat}"

/-- Notice the connections in the tables. -/
def notice (w : World) : World :=
  let tcp := w.relay.tcp.store.table.entries.foldl
    (fun flows (key, id) => bindKey flows (w.flowName key) id) w.tcpFlows
  let udp := w.relay.udp.store.table.entries.foldl
    (fun flows (key, id) => bindKey flows (w.flowName key) id) w.udpFlows
  { w with tcpFlows := tcp, udpFlows := udp }

/-- The open TCP connection of a named flow. -/
def openTcp? (w : World) (flow : String) : Option Nat :=
  (w.tcpFlows.lookup flow).filter w.relay.tcp.store.isOpen

/-- The open UDP connection of a named flow. -/
def openUdp? (w : World) (flow : String) : Option Nat :=
  (w.udpFlows.lookup flow).filter w.relay.udp.store.isOpen

end World

end FlowRelay.Scenario
