import FlowRelay.Tcp.Connection

/-!
# FlowRelay.Tcp.Engine

The TCP engine: it plays the far end of every connection of the device and keeps an outbound socket
for each.

The engine is a transition system.  A segment from the device, the end of a connect, of a read or of
a write each make one step from one engine to the next, with the surroundings as an argument.

1. A SYN of an unknown flow opens a connection, everything else of an unknown flow is ignored.  If
   no socket can be had the SYN is answered by a RST and leaves no trace.
2. The device is sent its SYN with an ACK once the outbound socket is connected.
3. Data and FIN of the device are queued, written in order, and acknowledged once they are written.
   A socket may take the data of a segment in parts, and a write that fails leaves parts taken.
4. What is read from the outbound socket is sent to the device at once; its end is sent as a FIN.
5. A connection that fails is reset: the device is sent a RST unless a side is closed already.

A step that comes late still finds the connection that it is about, for the store keeps connections
that are closed.
-/

namespace FlowRelay.Tcp

open Packet

/-- Work under way outside the engine, which ends in a step of its own. -/
inductive Task where
  | connect (id : Nat) (target : Net.Endpoint)
  | read (id : Nat)
  /-- A writer lives as long as its connection. -/
  | write (id : Nat)
  deriving DecidableEq, Repr

/-- The connection that a task is for. -/
def Task.connection : Task → Nat
  | .connect id _ => id
  | .read id => id
  | .write id => id

/-- The engine between two steps. -/
structure Engine where
  config : Config
  /-- Whether somebody takes reassembled bodies. -/
  inspecting : Bool
  /-- Every connection that was ever opened, and the table of the open ones. -/
  store : Flow.Store Connection
  tasks : List Task
  /-- The packets sent to the device, in order. -/
  outbox : List Outgoing
  /-- The data handed to outbound sockets, in order. -/
  handed : List Handed
  /-- The bodies delivered, in order. -/
  delivered : List Http.Delivery
  deriving Repr

namespace Engine

/-- An engine that has not seen anything yet. -/
def empty (config : Config) (inspecting : Bool) : Engine :=
  { config, inspecting, store := .empty config.capacity, tasks := []
    outbox := [], handed := [], delivered := [] }

/-! ## Connections -/

/-- Change a connection. -/
def update (e : Engine) (id : Nat) (f : Connection → Connection) : Engine :=
  { e with store := e.store.update id f }

/-- Close a connection and take it out of the table, where a newer one of its flow stays. -/
def terminate (e : Engine) (id : Nat) : Engine := { e with store := e.store.terminate id }

/-! ## The device side -/

/-- A packet buffer as it comes from the pool. -/
def blank (e : Engine) : List UInt8 := List.replicate e.config.mtu 0

/-- Send a packet that was written into a buffer to the device. -/
def emit (e : Engine) (s : Surroundings) (connection : Option Nat) (w : Packet.Written) :
    Engine × Except Fault Unit :=
  match w.result with
  | .error x => (e, .error (.packet x))
  | .ok n =>
    if s.deviceOpen then
      ({ e with outbox := e.outbox ++ [⟨connection, w.buffer.take n⟩] }, .ok ())
    else (e, .error .deviceStopped)

/-- Send a segment without data. -/
def send (e : Engine) (s : Surroundings) (id : Nat) (c : Connection) (flags : UInt8) :
    Engine × Except Fault Unit :=
  e.emit s id (c.template.writeTcpResponse e.blank flags c.sequence c.acknowledgement 0)

/-- Close a connection with a RST, unless one of its sides is closed already. -/
def reset (e : Engine) (s : Surroundings) (id : Nat) : Engine :=
  match e.store.connection? id with
  | none => e
  | some c =>
    if c.status.isClosing then e.terminate id
    else (e.send s id c (Flag.rst ||| Flag.ack)).1.terminate id

/-! ## Inspection -/

/-- Show data of one direction to the inspector of a connection, if it has one. -/
def inspect (e : Engine) (id : Nat) (direction : Http.Direction) (data : List UInt8) : Engine :=
  match e.store.connection? id with
  | none => e
  | some c =>
    match c.inspector with
    | none => e
    | some inspector =>
      let (inspector, result) := inspector.push direction data
      let e := e.update id fun c => { c with inspector := some inspector }
      match result with
      | .error _ => e
      | .ok bodies =>
        { e with delivered := e.delivered ++ bodies.map fun body => ⟨c.key, direction, body⟩ }

/-! ## Segments from the device -/

/-- Begin work outside the engine. -/
def register (e : Engine) (s : Surroundings) (task : Task) : Engine × Except Fault Unit :=
  if s.multiplexerOpen then ({ e with tasks := e.tasks ++ [task] }, .ok ())
  else (e, .error .multiplexerStopped)

/-- Open a connection for a SYN. -/
def openConnection (e : Engine) (s : Surroundings) (initial : UInt32) (key : Flow.Key)
    (headers : Packet.Headers) (syn : Packet.Tcp) : Engine × Except Fault Unit :=
  let template := headers.swap
  match s.socket with
  | .error fault =>
    let w :=
      template.writeTcpResponse e.blank (Flag.rst ||| Flag.ack) 0 (syn.sequence + 1) 0
    match e.emit s none w with
    | (e, .error x) => (e, .error x)
    | (e, .ok ()) => (e, .error fault)
  | .ok () =>
    let inspector :=
      if e.inspecting && e.config.inspectPorts.contains key.destination.port then
        some Http.Inspector.empty
      else none
    let c := Connection.make key template initial syn.sequence inspector s.now
    let (store, id) := e.store.openNew s.now e.config.tcpIdle c
    { e with store }.register s (.connect id (s.proxy.resolve key.destination))

/-- Queue a segment for the writer of a connection. -/
def enqueue (e : Engine) (s : Surroundings) (id : Nat) (c : Connection) (segment : Segment) :
    Engine × Except Fault Unit :=
  match c.writer with
  | .attached segments =>
    if e.tasks.contains (.write id) then
      (e.update id fun c => { c with writer := .attached (segments ++ [segment]) }, .ok ())
    else (e.reset s id, .error .writerStopped)
  | .absent | .released _ => (e.reset s id, .error .notConnected)

/-- Take a segment of an open connection. -/
def handleSegment (e : Engine) (s : Surroundings) (id : Nat) (c : Connection) (tcp : Packet.Tcp)
    (payload : List UInt8) : Engine × Except Fault Unit :=
  let theirs := if tcp.isAck then tcp.acknowledgement else c.theirAcknowledgement
  let c := { c with lastActive := s.now, theirAcknowledgement := theirs }
  let e := e.update id fun _ => c
  if tcp.isRst then (e.terminate id, .ok ())
  else if tcp.isSyn then
    match c.status with
    | .synSent | .synReceived =>
      (e.update id fun c => { c with acknowledgement := tcp.sequence + 1 }, .ok ())
    | .established | .closeWait | .lastAck => (e.reset s id, .ok ())
  else if !tcp.isFin && !tcp.isAck then (e, .ok ())
  else if c.status = .synSent then (e.reset s id, .ok ())
  else
    let status := if c.status = .synReceived ∧ tcp.isAck then .established else c.status
    let e := e.update id fun c => { c with status }
    -- An ACK without data matters only while the last acknowledgement is awaited.
    if payload.isEmpty && !tcp.isFin && c.status ≠ .lastAck then (e, .ok ())
    else e.enqueue s id { c with status } ⟨tcp.sequence, payload, tcp.isFin⟩

/-- Take a packet from the device.  `initial` is the initial sequence number of the connection that
it may open. -/
def handle (e : Engine) (s : Surroundings) (initial : UInt32) (d : Packet.Datagram) :
    Engine × Except Fault Unit :=
  match d.headers.tcp? with
  | none => (e, .ok ())
  | some tcp =>
    let key : Flow.Key := ⟨d.destination, d.source.port⟩
    match e.store.find? key with
    | (store, some id) =>
      let e := { e with store }
      match e.store.connection? id with
      | none => (e, .ok ())
      | some c => if c.closed then (e, .ok ()) else e.handleSegment s id c tcp d.payload
    | (_, none) =>
      if tcp.isSyn && !tcp.isAck && !tcp.isRst then e.openConnection s initial key d.headers tcp
      else (e, .ok ())

/-! ## Ends of work outside -/

/-- Take a task out of those under way. -/
def finishTask (e : Engine) (task : Task) : Engine := { e with tasks := e.tasks.erase task }

/-- Begin the next read of a connection, if somebody drives it. -/
def readOn (e : Engine) (s : Surroundings) (id : Nat) : Engine := (e.register s (.read id)).1

/-- The outbound socket of a connection is connected, or could not be. -/
def connected (e : Engine) (s : Surroundings) (id : Nat) (result : Except Fault Unit) : Engine :=
  match e.store.connection? id with
  | none => e
  | some c =>
    if c.closed || c.status ≠ .synSent then e
    else
      match result with
      | .error _ => (e.update id fun c => { c with sequence := 0 }).reset s id
      | .ok () =>
        match e.send s id c (Flag.syn ||| Flag.ack) with
        | (e, .error _) => e.terminate id
        | (e, .ok ()) =>
          let e := e.update id fun c =>
            { c with
              sequence := c.sequence + 1, status := .synReceived, lastActive := s.now
              writer := .attached [] }
          { e with tasks := e.tasks ++ [Task.write id] }.readOn s id

/-- How many bytes a read may return. -/
def readRoom (e : Engine) : Nat := e.config.mtu - Packet.Headers.tcpPayloadOffset

/-- A read of a connection ended.  No data is the end of the stream. -/
def received (e : Engine) (s : Surroundings) (id : Nat) (result : Except Fault (List UInt8)) :
    Engine :=
  match e.store.connection? id with
  | none => e
  | some c =>
    if c.closed || c.status = .lastAck then e
    else
      match result.map (·.take e.readRoom) with
      | .error _ => e.reset s id
      | .ok [] =>
        if c.lastRead.elapsedMore s.now e.config.eofIdle then e.terminate id
        else
          match e.send s id c (Flag.fin ||| Flag.ack) with
          | (e, .error _) => e.terminate id
          | (e, .ok ()) =>
            e.update id fun c => { c with sequence := c.sequence + 1, status := .lastAck }
      | .ok data =>
        let e := e.inspect id .response data
        let buffer := Bytes.overwrite e.blank Packet.Headers.tcpPayloadOffset data
        let w := c.template.writeTcpResponse buffer (Flag.psh ||| Flag.ack) c.sequence
          c.acknowledgement data.length
        match e.emit s id w with
        | (e, .error _) => e.terminate id
        | (e, .ok ()) =>
          let e := e.update id fun c =>
            { c with
              sequence := c.sequence + UInt32.ofNat data.length
              bytesRead := c.bytesRead + data.length, lastRead := s.now, lastActive := s.now }
          e.readOn s id

/-- Acknowledge a segment that has been written, and close the connection on the last
acknowledgement. -/
def complete (e : Engine) (s : Surroundings) (id : Nat) (segment : Segment) :
    Engine × Except Fault Unit :=
  let e :=
    if segment.payload.isEmpty then e
    else
      (e.update id fun c =>
        { c with bytesWritten := c.bytesWritten + segment.payload.length }).inspect id .request
          segment.payload
  let acknowledged := e.update id fun c => { c with acknowledgement := segment.stop }
  match acknowledged.store.connection? id with
  | none => (e, .ok ())
  | some c =>
    if segment.fin then
      if c.status = .lastAck then
        match acknowledged.send s id c Flag.ack with
        | (e, .error x) => (e, .error x)
        | (e, .ok ()) => (e.terminate id, .ok ())
      else
        match acknowledged.send s id c (Flag.fin ||| Flag.ack) with
        | (e, .error x) => (e, .error x)
        | (e, .ok ()) =>
          (e.update id fun c => { c with sequence := c.sequence + 1, status := .lastAck }, .ok ())
    else if !segment.payload.isEmpty then acknowledged.send s id c Flag.ack
    else if c.status = .lastAck ∧ c.theirAcknowledgement = c.sequence then
      (e.terminate id, .ok ())
    else (e, .ok ())

/-- Note data that the outbound socket of a connection has taken. -/
def hand (e : Engine) (id : Nat) (payload : List UInt8) : Engine :=
  if payload.isEmpty then e else { e with handed := e.handed ++ [⟨id, payload⟩] }

/-- The outbound socket of a connection takes bytes of the first segment in its queue, while the
segment as a whole is still being written. -/
def took (e : Engine) (id count : Nat) : Engine :=
  match e.store.connection? id with
  | none => e
  | some c =>
    match c.writer.segments with
    | [] => e
    | segment :: _ =>
      let e := e.update id fun c => { c with taken := c.taken + count }
      e.hand id ((segment.payload.drop c.taken).take count)

/-- The first segment in the queue of a connection is written, or could not be.  A segment without
data needs no writing. -/
def wrote (e : Engine) (s : Surroundings) (id : Nat) (result : Except Fault Unit) : Engine :=
  match e.store.connection? id with
  | none => e
  | some c =>
    match c.writer.segments with
    | [] => e
    | segment :: _ =>
      let e := e.update id fun c => { c with writer := c.writer.dropFirst, taken := 0 }
      match if segment.payload.isEmpty then .ok () else result with
      | .error _ => (if c.closed then e else e.reset s id).finishTask (.write id)
      | .ok () =>
        let e := e.hand id (segment.payload.drop c.taken)
        if c.closed then e.finishTask (.write id)
        else
          match e.complete s id segment with
          | (e, .ok ()) => e
          | (e, .error _) => (e.terminate id).finishTask (.write id)

/-- Close every connection, telling how many there were. -/
def closeAll (e : Engine) : Engine × Nat :=
  let (store, count) := e.store.closeAll
  ({ e with store }, count)

/-! ## Steps -/

/-- What makes the engine take a step. -/
inductive Event where
  | segment (initial : UInt32) (d : Packet.Datagram)
  | connected (id : Nat) (target : Net.Endpoint) (result : Except Fault Unit)
  | received (id : Nat) (result : Except Fault (List UInt8))
  /-- The outbound socket takes a part of the segment that is being written. -/
  | took (id count : Nat)
  | wrote (id : Nat) (result : Except Fault Unit)
  /-- A task notices that its connection is closed. -/
  | abandoned (task : Task)
  | closeAll

/-- Whether work outside ends, or a part of it. -/
def Event.isCompletion : Event → Bool
  | .connected .. | .received .. | .took .. | .wrote .. | .abandoned _ => true
  | .segment .. | .closeAll => false

/-- Take a step.  Work ends only where it is under way, and is abandoned only by a closed
connection; the engine stays as it is otherwise. -/
def step (e : Engine) (s : Surroundings) : Event → Engine
  | .segment initial d => (e.handle s initial d).1
  | .connected id target result =>
    if e.tasks.contains (.connect id target) then
      (e.finishTask (.connect id target)).connected s id result
    else e
  | .received id result =>
    if e.tasks.contains (.read id) then (e.finishTask (.read id)).received s id result else e
  | .took id count => if e.tasks.contains (.write id) then e.took id count else e
  | .wrote id result => if e.tasks.contains (.write id) then e.wrote s id result else e
  | .abandoned task =>
    if e.store.isClosed task.connection then e.finishTask task else e
  | .closeAll => e.closeAll.1

end Engine

end FlowRelay.Tcp
