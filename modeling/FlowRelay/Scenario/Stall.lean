import FlowRelay.Scenario.Event

/-!
# FlowRelay.Scenario.Stall

A device that sends to a server which never reads.  The segments are acknowledged as long as there
is room for them on their way to the server; the write of the one behind them times out, which
resets the flow.
-/

namespace FlowRelay.Scenario

/-- What the device sends to a server that never reads. -/
structure Stall where
  /-- The sequence number of the SYN. -/
  sequence : UInt32
  /-- How many segments follow the handshake. -/
  count : Nat
  /-- The length of each segment. -/
  size : Nat
  /-- How many segments there is room for on their way to the server. -/
  room : Nat

/-- What the device sees. -/
structure StallReport where
  /-- The packet that ends the flow. -/
  reset : Packet.Tcp
  /-- Each acknowledgement before it covers one more segment. -/
  inOrder : Bool
  /-- The reset acknowledges what the last acknowledgement did. -/
  repeats : Bool
  /-- The entries that are left in the table. -/
  entries : Nat
  /-- How many packets follow the reset. -/
  more : Nat

namespace Stall

/-- The server. -/
def server : String := "server"

/-- The device. -/
def device : Net.Endpoint := ⟨⟨10, 0, 0, 2⟩, 50000⟩

/-- The sequence number of the first byte behind so many segments. -/
def behind (s : Stall) (segments : Nat) : UInt32 :=
  s.sequence + 1 + UInt32.ofNat (segments * s.size)

/-- A segment of the device. -/
def order (target : Net.Endpoint) (flags : UInt8) (sequence : UInt32) (acknowledgement : UInt32)
    (payload : List UInt8) : Event :=
  .tcp ⟨device, target, flags, sequence, some acknowledgement, payload⟩ false

/-- The flow after the handshake. -/
def handshake (s : Stall) (target : Net.Endpoint) (w : World) : World :=
  let w := (w.happen (order target Packet.Flag.syn s.sequence 0 []) false).1
  (w.happen (order target Packet.Flag.ack (s.behind 0) 1 []) false).1

/-- The segments are queued. -/
def queue (s : Stall) (target : Net.Endpoint) (w : World) : World :=
  (List.range s.count).foldl (fun w i =>
    let payload := List.replicate s.size 0
    (w.happen (order target (Packet.Flag.psh ||| Packet.Flag.ack) (s.behind i) 1 payload) true).1) w

/-- A write ends. -/
def writeEnds (id : Nat) (result : Except Fault Unit) (w : World) : World :=
  w.setTcp (w.relay.tcp.step w.surroundings (.wrote id result))

/-- The segments are written as far as there is room, and then a write times out. -/
def write (s : Stall) (id : Nat) (w : World) : World :=
  let written := (List.range s.room).foldl (fun w _ => writeEnds id (.ok ()) w) w
  writeEnds id (.error .writeTimedOut) written

/-- The TCP header of a packet for the device. -/
def header? (o : Outgoing) : Option Packet.Tcp :=
  (Packet.Datagram.parse o.buffer).toOption.bind fun d => d.headers.tcp?

/-- What the device has seen since the handshake. -/
def report? (s : Stall) (w : World) : Option StallReport :=
  let seen := w.relay.tcp.outbox.filterMap header?
  let before := seen.takeWhile (!·.isRst)
  match seen.dropWhile (!·.isRst) with
  | [] => none
  | reset :: rest =>
    let numbers := before.map Packet.Tcp.acknowledgement
    some
      { reset
        inOrder := numbers = (List.range before.length).map fun i => s.behind (i + 1)
        repeats := numbers.getLastD (s.behind 0) = reset.acknowledgement
        entries := w.relay.tcp.store.table.size
        more := rest.length }

/-- Let the device send to a server that never reads, if the server can be connected to. -/
def run? (s : Stall) (isUp : Bool) (config : Config) : Option StallReport := do
  let network ← Network.ofServers? isUp [(server, .listening)]
  let target ← network.endpoint? server
  let w := s.handshake target (.start network config (.unset 1) true false false)
  let id ← w.openTcp? (w.flowName ⟨target, device.port⟩)
  let w := { w with relay := { w.relay with tcp := { w.relay.tcp with outbox := [] } } }
  s.report? (s.write id (s.queue target w))

end Stall

end FlowRelay.Scenario
