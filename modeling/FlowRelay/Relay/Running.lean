import FlowRelay.Device.Pump
import FlowRelay.Device.Writer
import FlowRelay.Tcp.Engine
import FlowRelay.Udp.Dispatch

/-!
# FlowRelay.Relay.Running

A relay at work on a device.

A reader and a writer serve the device.  Two dispatchers hand what was read to the engines, and two
multiplexers drive the connects and reads of their connections.  All of them work on their own until
they find the stop signal, which is raised from outside, or by the reader when the device fails.
What the multiplexer of TCP has driven to its end is completed by itself, however late.  When all of
them have ended the connections are closed, first those of TCP, one by one.

An event that cannot happen as things are leaves the relay as it is.
-/

namespace FlowRelay

/-- Those who work on their own, besides the reader and the writer. -/
inductive Worker where
  | tcpDispatcher
  | tcpMultiplexer
  | udpDispatcher
  | udpMultiplexer
  deriving DecidableEq, Repr

/-- How far the end of a run has come. -/
inductive Phase where
  /-- Not everybody has ended. -/
  | working
  /-- The table of TCP is empty, and these connections from it are still to be closed. -/
  | closingTcp (left : List Nat)
  | closingUdp (left : List Nat)
  | returned

/-- A relay on a device. -/
structure Relay where
  pump : Device.Pump
  /-- How the reads from the device have ended. -/
  readings : List Device.Reading
  /-- How the reader has ended. -/
  reader : Option (Except Fault Unit)
  writer : Device.Writer
  tcp : Tcp.Engine
  udp : Udp.Engine
  /-- The datagrams of the device that are on their way to their sockets. -/
  sends : List Udp.Sending
  gone : List Worker
  phase : Phase

namespace Relay

/-- A relay that starts to run. -/
def start (config : Config) (inspecting : Bool) : Relay :=
  { pump := .empty config.mtu, readings := [], reader := none, writer := .empty
    tcp := .empty config inspecting, udp := .empty config, sends := [], gone := []
    phase := .working }

/-- What the run has returned. -/
def outcome (r : Relay) : Option (Except Fault Unit) :=
  match r.phase with
  | .returned => r.reader
  | .working | .closingTcp _ | .closingUdp _ => none

/-- The UDP engine with what its dispatcher does. -/
def dispatch (r : Relay) : Udp.Dispatch := ⟨r.udp, r.sends⟩

/-! ## Steps -/

/-- What surrounds an engine, with the writer and the multiplexer of the engine as they are. -/
def around (r : Relay) (s : Surroundings) (multiplexer : Worker) : Surroundings :=
  { s with deviceOpen := r.writer.isOpen, multiplexerOpen := !r.gone.contains multiplexer }

/-- Packets that an engine has sent go into the queue of the writer. -/
def queueAll (r : Relay) (packets : List Outgoing) : Relay :=
  { r with writer := r.writer.run r.pump.stopped (packets.map fun p => .queue p.buffer) }

/-- The TCP engine takes a step. -/
def stepTcp (r : Relay) (s : Surroundings) (event : Tcp.Engine.Event) : Relay :=
  let tcp := r.tcp.step (r.around s .tcpMultiplexer) event
  { r with tcp }.queueAll (tcp.outbox.drop r.tcp.outbox.length)

/-- The UDP engine or its dispatcher takes a step. -/
def stepUdp (r : Relay) (s : Surroundings) (event : Udp.Dispatch.Event) : Relay :=
  let p := r.dispatch.step (r.around s .udpMultiplexer) event
  { r with udp := p.engine, sends := p.sends }.queueAll
    (p.engine.outbox.drop r.udp.outbox.length)

/-- A read from the device ends. -/
def readOnce (r : Relay) (reading : Device.Reading) : Relay :=
  match r.reader with
  | some _ => r
  | none =>
    let (pump, fault?) := r.pump.read reading
    { r with pump, readings := r.readings ++ [reading], reader := fault?.map .error }

/-- The reader finds the stop signal. -/
def stopReading (r : Relay) : Relay :=
  match r.reader, r.pump.stopped with
  | none, true => { r with pump := r.pump.stop, reader := some (.ok ()) }
  | _, _ => r

/-- The TCP dispatcher takes the next packet. -/
def handleNext (r : Relay) (s : Surroundings) (initial : UInt32) : Relay :=
  match r.gone.contains .tcpDispatcher, r.pump.take? .tcp with
  | false, some (d, pump) => { r with pump }.stepTcp s (.segment initial d)
  | _, _ => r

/-- The UDP dispatcher takes the next packet, once the last one has been sent. -/
def acceptNext (r : Relay) (s : Surroundings) (calls : Udp.SocketCalls) : Relay :=
  match r.gone.contains .udpDispatcher, r.sends, r.pump.take? .udp with
  | false, [], some (d, pump) => { r with pump }.stepUdp s (.accept calls d)
  | _, _, _ => r

/-- The datagram that is on its way has been sent, or cannot be. -/
def sendFirst (r : Relay) (s : Surroundings) (calls : Udp.SocketCalls) : Relay :=
  match r.sends with
  | x :: _ => r.stepUdp s (.sent x calls)
  | [] => r

/-- Work of a TCP connection ends. -/
def completeTcp (r : Relay) (s : Surroundings) (event : Tcp.Engine.Event) : Relay :=
  if event.isCompletion then r.stepTcp s event else r

/-- A read of a UDP connection ends, as long as its multiplexer works. -/
def completeUdp (r : Relay) (s : Surroundings) (event : Udp.Engine.Event) : Relay :=
  match r.gone.contains .udpMultiplexer, event with
  | false, .received .. | false, .abandoned _ => r.stepUdp s (.own event)
  | _, _ => r

/-- A worker finds the stop signal.  The UDP dispatcher does not look for it while it sends. -/
def leave (r : Relay) (worker : Worker) : Relay :=
  if !r.pump.stopped || r.gone.contains worker then r
  else
    let left := { r with gone := worker :: r.gone }
    match worker with
    | .tcpDispatcher => { left with pump := r.pump.shut .tcp }
    | .udpDispatcher =>
      if r.sends.isEmpty then { left with pump := r.pump.shut .udp } else r
    | .tcpMultiplexer | .udpMultiplexer => left

/-- Whether everybody has ended. -/
def isJoined (r : Relay) : Bool :=
  r.reader.isSome && r.writer.hasEnded &&
    [Worker.tcpDispatcher, .tcpMultiplexer, .udpDispatcher, .udpMultiplexer].all r.gone.contains

/-- The next thing to do at the end of a run. -/
def sweep (r : Relay) : Relay :=
  match r.phase with
  | .working =>
    if r.isJoined then
      let (table, entries) := r.tcp.store.table.clear
      { r with
        tcp := { r.tcp with store := { r.tcp.store with table } }
        phase := .closingTcp (entries.map Prod.snd) }
    else r
  | .closingTcp (id :: left) =>
    { r with tcp := r.tcp.update id Flow.Tracked.close, phase := .closingTcp left }
  | .closingTcp [] =>
    let (table, entries) := r.udp.store.table.clear
    { r with
      udp := { r.udp with store := { r.udp.store with table } }
      phase := .closingUdp (entries.map Prod.snd) }
  | .closingUdp (id :: left) =>
    { r with udp := r.udp.update id Flow.Tracked.close, phase := .closingUdp left }
  | .closingUdp [] =>
    { r with pump := { r.pump with pool := r.pump.pool.drain }, phase := .returned }
  | .returned => r

/-- What may happen to a relay. -/
inductive Event where
  | read (reading : Device.Reading)
  /-- The stop signal is raised from outside. -/
  | raise
  | stopReading
  | write (act : Device.Writer.Act)
  | segment (initial : UInt32)
  | datagram (calls : Udp.SocketCalls)
  | sent (calls : Udp.SocketCalls)
  | tcp (event : Tcp.Engine.Event)
  | udp (event : Udp.Engine.Event)
  | leave (worker : Worker)
  | sweep

/-- One event. -/
def step (r : Relay) (s : Surroundings) : Event → Relay
  | .read reading => r.readOnce reading
  | .raise => { r with pump := { r.pump with stopped := true } }
  | .stopReading => r.stopReading
  | .write act =>
    if act.isOwn then { r with writer := r.writer.step r.pump.stopped act } else r
  | .segment initial => r.handleNext s initial
  | .datagram calls => r.acceptNext s calls
  | .sent calls => r.sendFirst s calls
  | .tcp event => r.completeTcp s event
  | .udp event => r.completeUdp s event
  | .leave worker => r.leave worker
  | .sweep => r.sweep

/-- Events one after the other. -/
def run (r : Relay) (steps : List (Surroundings × Event)) : Relay :=
  steps.foldl (fun r (s, event) => r.step s event) r

/-! ## Runs without delay -/

/-- Everything that was read is handled at once. -/
def handleAll (r : Relay) (s : Surroundings) (initial : UInt32) (calls : Udp.SocketCalls) :
    Relay :=
  let segments := (r.pump.tcp.getD []).map fun _ => Event.segment initial
  let datagrams := (r.pump.udp.getD []).flatMap fun _ => [Event.datagram calls, .sent calls]
  r.run ((segments ++ datagrams).map (s, ·))

/-- The workers find the stop signal one after the other. -/
def leaving : List Event :=
  [Worker.tcpDispatcher, .tcpMultiplexer, .udpDispatcher, .udpMultiplexer].map .leave

/-- The writer finds the stop signal, and the device takes the packets that wait. -/
def flushing (packets : List (List UInt8)) : List Event :=
  let written := packets.flatMap fun packet => [.write .next, .write (.answer (.ok packet.length))]
  .write .notice :: written ++ [.write .finish]

/-- Everybody finds the stop signal at once, the packets that wait for the device are written, and
the connections are closed. -/
def finish (r : Relay) (s : Surroundings) : Relay :=
  let connections := r.tcp.store.table.size + r.udp.store.table.size
  let sweeping := List.replicate (connections + 3) Event.sweep
  r.run ((leaving ++ flushing r.writer.queue ++ sweeping).map (s, ·))

/-- Read from the device and handle what was read.  Once the run has ended nothing is read. -/
def read (r : Relay) (s : Surroundings) (initial : UInt32) (calls : Udp.SocketCalls)
    (reading : Device.Reading) : Relay :=
  let r := r.step s (.read reading)
  match r.reader with
  | none => r.handleAll s initial calls
  | some _ => r.finish s

/-- Raise the stop signal. -/
def stop (r : Relay) (s : Surroundings) : Relay :=
  (r.run ([.raise, .stopReading].map (s, ·))).finish s

end Relay

end FlowRelay
