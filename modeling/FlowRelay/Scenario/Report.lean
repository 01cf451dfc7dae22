import FlowRelay.Scenario.Event

/-!
# FlowRelay.Scenario.Report

What can be seen of a world after an event: the packets and bodies since the last report, the
tables, and the state of every flow.  A connection that has closed is reported once more and then
forgotten.
-/

namespace FlowRelay.Scenario

/-- How the far end of a TCP connection sees it. -/
inductive PeerState where
  /-- It was never connected, or was reset from the far end. -/
  | none
  | isOpen
  | isClosed
  deriving DecidableEq, Repr

/-- What can be seen of a TCP flow. -/
structure TcpFlow where
  name : String
  connection : Tcp.Connection
  inTable : Bool
  received : List UInt8
  peer : PeerState

/-- What can be seen of a UDP flow. -/
structure UdpFlow where
  name : String
  connection : Udp.Connection
  inTable : Bool
  received : List (List UInt8)

/-- What can be seen of a world. -/
structure Report where
  packets : List Outgoing
  tcpTable : List String
  udpTable : List String
  tcpFlows : List TcpFlow
  udpFlows : List UdpFlow
  deliveries : List Http.Delivery

namespace World

/-- The far end of a TCP connection. -/
def peerState (w : World) (id : Nat) (c : Tcp.Connection) : PeerState :=
  match w.peers.lookup id with
  | none => .none
  | some peer => if peer.reset then .none else if c.closed then .isClosed else .isOpen

/-- What can be seen of a TCP flow. -/
def tcpFlow? (w : World) (name : String) (id : Nat) : Option TcpFlow :=
  (w.relay.tcp.store.connection? id).map fun c =>
    { name, connection := c, inTable := w.relay.tcp.store.table.peek? c.key = some id
      received := ((w.peers.lookup id).map Peer.received).getD []
      peer := w.peerState id c }

/-- What can be seen of a UDP flow. -/
def udpFlow? (w : World) (name : String) (id : Nat) : Option UdpFlow :=
  (w.relay.udp.store.connection? id).map fun c =>
    { name, connection := c, inTable := w.relay.udp.store.table.peek? c.key = some id
      received := ((w.mailboxes.lookup id).map Mailbox.received).getD [] }

/-- What can be seen now. -/
def report (w : World) : Report :=
  { packets := w.relay.tcp.outbox ++ w.relay.udp.outbox
    tcpTable := w.relay.tcp.store.table.entries.map fun (key, _) => w.flowName key
    udpTable := w.relay.udp.store.table.entries.map fun (key, _) => w.flowName key
    tcpFlows := w.tcpFlows.filterMap fun (name, id) => w.tcpFlow? name id
    udpFlows := w.udpFlows.filterMap fun (name, id) => w.udpFlow? name id
    deliveries := w.relay.tcp.delivered }

/-- Forget what has been reported for good. -/
def forget (w : World) : World :=
  { w with
    relay := { w.relay with
      tcp := { w.relay.tcp with outbox := [], delivered := [] }
      udp := { w.relay.udp with outbox := [] } }
    peers := w.peers.map fun (id, p) => (id, { p with received := [] })
    mailboxes := w.mailboxes.map fun (id, m) => (id, { m with received := [] })
    tcpFlows := w.tcpFlows.filter fun (_, id) => w.relay.tcp.store.isOpen id
    udpFlows := w.udpFlows.filter fun (_, id) => w.relay.udp.store.isOpen id }

end World

end FlowRelay.Scenario
