import FlowRelay.Scenario.World

/-!
# FlowRelay.Scenario.Event

What may happen to a relay in its network: the device sends packets, servers send data and end or
reset their streams, time passes, hooks change, and the run is stopped.
-/

namespace FlowRelay.Scenario

/-- A TCP segment of the device. -/
structure SegmentOrder where
  source : Net.Endpoint
  destination : Net.Endpoint
  flags : UInt8
  sequence : UInt32
  /-- Counted from the initial sequence number of the flow, if it is open. -/
  acknowledgement : Option UInt32
  payload : List UInt8

/-- What may happen. -/
inductive Event where
  /-- The device sends a segment, which may be handed to the other engine. -/
  | tcp (order : SegmentOrder) (misdirected : Bool)
  /-- The device sends a datagram, which may be handed to the other engine. -/
  | udp (source destination : Net.Endpoint) (payload : List UInt8) (misdirected : Bool)
  /-- The server of a flow sends data. -/
  | send (flow : String) (data : List UInt8)
  /-- The server of a flow ends its stream. -/
  | endStream (flow : String)
  /-- The server of a flow resets the connection. -/
  | resetStream (flow : String)
  /-- The last activity of a flow is so many milliseconds ago. -/
  | age (flow : String) (milliseconds : Nat)
  /-- The last read of a flow is so many milliseconds ago. -/
  | ageRead (flow : String) (milliseconds : Nat)
  /-- The status of a flow is what is said here. -/
  | force (flow : String) (status : Tcp.Status)
  | closeAll
  /-- The target of the proxy, or its availability, changes. -/
  | proxy (target : Option (Option Net.Endpoint)) (available : Option Bool)
  | protection (holds : Bool)
  | deviceGone
  | multiplexerGone
  /-- The device yields bytes. -/
  | read (bytes : List UInt8)
  | deviceFails (fault : Fault)
  | stop

/-- What an event leads to. -/
inductive Outcome where
  | ok
  | failed (fault : Fault)
  /-- There is no open flow of the name. -/
  | noFlow
  /-- The flow has no far end, or none any more. -/
  | noPeer
  /-- So many connections were closed. -/
  | closed (tcp udp : Nat)
  /-- The run ended; the stop signal before and after. -/
  | stopped (before after : Bool)
  /-- The run had ended before; the stop signal before and after. -/
  | finished (before after : Bool)
  /-- The run ended with a fault, and this is the stop signal. -/
  | broke (fault : Fault) (stopped : Bool)

namespace World

/-! ## Packets of the device -/

/-- The acknowledgement number of a segment, counted from the initial sequence number of its flow if
the flow is open. -/
def absolute (w : World) (flow : String) : Option UInt32 → UInt32
  | none => 0
  | some n => if (w.openTcp? flow).isSome then initialSequence + n else n

/-- The key of the flow that a packet belongs to. -/
def keyOf (d : Packet.Datagram) : Flow.Key := ⟨d.destination, d.source.port⟩

/-- The device yields bytes to the running relay. -/
def readBytes (w : World) (bytes : List UInt8) : World :=
  let key : Flow.Key := match Packet.Datagram.parse bytes with
    | .ok d => keyOf d
    | .error _ => default
  { w with
    relay := w.relay.read w.surroundings initialSequence (w.socketCalls key) (.data bytes) }

/-- Hand a packet to the TCP engine. -/
def callTcp (w : World) (d : Packet.Datagram) : World × Outcome :=
  match w.relay.tcp.handle w.surroundings initialSequence d with
  | (e, .ok ()) => (w.setTcp e, .ok)
  | (e, .error fault) => (w.setTcp e, .failed fault)

/-- Hand a packet to the UDP engine. -/
def callUdp (w : World) (d : Packet.Datagram) : World × Outcome :=
  (w.setUdp (w.relay.udp.handle w.surroundings (w.socketCalls (keyOf d)) d), .ok)

/-- The device sends a packet, if it can be made. -/
def deviceSends (w : World) (made : Except Packet.MakeError Packet.Datagram) (toTcp : Bool) :
    World × Outcome :=
  match made with
  | .error e => (w, if w.isRunning then .ok else .failed (.ofMakeError e))
  | .ok d =>
    if w.isRunning then (w.readBytes d.bytes, .ok)
    else if toTcp then w.callTcp d
    else w.callUdp d

/-! ## Far ends -/

/-- Change the far end of an open TCP flow. -/
def withPeer (w : World) (id : Nat) (f : Peer → Peer) : World × Outcome :=
  match w.peers.lookup id with
  | none => (w, .noPeer)
  | some peer =>
    if peer.reset then (w, .noPeer)
    else ({ w with peers := bindKey w.peers id (f peer) }, .ok)

/-- The server of a flow sends data. -/
def serverSends (w : World) (flow : String) (data : List UInt8) : World × Outcome :=
  match w.openTcp? flow, w.openUdp? flow with
  | some id, _ => w.withPeer id fun p => { p with inbound := p.inbound ++ data }
  | none, some id =>
    let mailbox := (w.mailboxes.lookup id).getD ⟨[], []⟩
    let mailbox := { mailbox with inbound := mailbox.inbound ++ [.ok data] }
    ({ w with mailboxes := bindKey w.mailboxes id mailbox }, .ok)
  | none, none => (w, .noFlow)

/-- The server of a flow changes its stream. -/
def changeStream (w : World) (flow : String) (f : Peer → Peer) : World × Outcome :=
  match w.openTcp? flow with
  | some id => w.withPeer id f
  | none => (w, .noFlow)

/-- Change the connection of an open TCP flow. -/
def changeTcp (w : World) (flow : String) (f : Tcp.Connection → Tcp.Connection) :
    World × Outcome :=
  match w.openTcp? flow with
  | some id => (w.setTcp (w.relay.tcp.update id f), .ok)
  | none => (w, .noFlow)

/-- The point in time so many milliseconds ago. -/
def ago (w : World) (milliseconds : Nat) : Instant := w.now - 1000 * (milliseconds : Int)

/-- The last activity of a flow is so long ago. -/
def age (w : World) (flow : String) (milliseconds : Nat) : World × Outcome :=
  let lastActive := w.ago milliseconds
  match w.openTcp? flow, w.openUdp? flow with
  | some id, _ => (w.setTcp (w.relay.tcp.update id fun c => { c with lastActive }), .ok)
  | none, some id => (w.setUdp (w.relay.udp.update id fun c => { c with lastActive }), .ok)
  | none, none => (w, .noFlow)

/-! ## Events -/

/-- End the run of the relay. -/
def stopRun (w : World) : World × Outcome :=
  let before := w.relay.pump.stopped
  if w.relay.outcome.isSome then (w, .finished before before)
  else
    let relay := w.relay.stop w.surroundings
    ({ w with relay }, .stopped before relay.pump.stopped)

/-- The device fails; the run ends unless the read is tried again. -/
def deviceFails (w : World) (fault : Fault) : World × Outcome :=
  let before := w.relay.pump.stopped
  if w.relay.outcome.isSome then (w, .finished before before)
  else
    let relay := w.relay.read w.surroundings initialSequence (w.socketCalls default)
      (.failed fault)
    let w := { w with relay }
    match relay.outcome with
    | some (.error fault) => (w, .broke fault relay.pump.stopped)
    | some (.ok ()) | none => (w, .ok)

/-- Close the connections of both engines. -/
def closeAll (w : World) : World × Outcome :=
  let (tcp, closedTcp) := w.relay.tcp.closeAll
  let (udp, closedUdp) := w.relay.udp.closeAll
  ((w.setTcp tcp).setUdp udp, .closed closedTcp closedUdp)

/-- Nobody drives connects and reads any more. -/
def stopMultiplexers (w : World) : World :=
  let isWriter : Tcp.Task → Bool
    | .write _ => true
    | .connect _ _ | .read _ => false
  let tcp := { w.relay.tcp with tasks := w.relay.tcp.tasks.filter isWriter }
  let udp := { w.relay.udp with tasks := [] }
  { (w.setTcp tcp).setUdp udp with multiplexerOpen := false }

/-- Let an event happen. -/
def apply (w : World) : Event → World × Outcome
  | .tcp order misdirected =>
    let flow := w.flowName ⟨order.destination, order.source.port⟩
    let made := Packet.Datagram.tcp order.source order.destination order.flags order.sequence
      (w.absolute flow order.acknowledgement) order.payload
    w.deviceSends made !misdirected
  | .udp source destination payload misdirected =>
    w.deviceSends (Packet.Datagram.udp source destination payload) misdirected
  | .send flow data => w.serverSends flow data
  | .endStream flow => w.changeStream flow fun p => { p with ended := true }
  | .resetStream flow => w.changeStream flow fun p => { p with reset := true }
  | .age flow milliseconds => w.age flow milliseconds
  | .ageRead flow milliseconds =>
    w.changeTcp flow fun c => { c with lastRead := w.ago milliseconds }
  | .force flow status => w.changeTcp flow fun c => { c with status }
  | .closeAll => w.closeAll
  | .proxy target available =>
    let proxy := { w.proxy with
      target := target.getD w.proxy.target, available := available.getD w.proxy.available }
    ({ w with proxy }, .ok)
  | .protection holds => ({ w with isProtected := holds }, .ok)
  | .deviceGone => ({ w with deviceOpen := false }, .ok)
  | .multiplexerGone => (w.stopMultiplexers, .ok)
  | .read bytes => (w.readBytes bytes, .ok)
  | .deviceFails fault => w.deviceFails fault
  | .stop => w.stopRun

/-- Let an event happen and, unless it is held, let the world settle.  Connections are noticed at
once where the engines are called directly, and only after settling where the relay runs. -/
def happen (w : World) (event : Event) (held : Bool) : World × Outcome :=
  let (w, outcome) := w.tick.apply event
  let w := if w.isRunning then w else w.notice
  let w := if held then w else w.settle
  (if w.isRunning then w.notice else w, outcome)

end World

end FlowRelay.Scenario
