import FlowRelay.Fault
import FlowRelay.Pool
import FlowRelay.Traffic

/-!
# FlowRelay.Device.Pump

Reading packets from the device and handing each to the engine of its protocol.

Every read goes into a buffer of its own, which is cut to what was read and which a packet keeps
until its engine has handled it.  What is not a packet, and what nobody takes any more, is dropped.
A read that was merely interrupted is tried again; any other failure of the device raises the stop
signal and ends the reading.
-/

namespace FlowRelay.Device

open Packet

/-- What a read from the device ends with.  No bytes are an empty read. -/
inductive Reading where
  | data (bytes : List UInt8)
  | failed (fault : Fault)

/-- The packets that wait for their engine, or nothing if the engine takes none any more. -/
abbrev Queue := Option (List Datagram)

/-- The reading side of a device. -/
structure Pump where
  pool : Pool
  traffic : Traffic
  tcp : Queue
  udp : Queue
  stopped : Bool

namespace Pump

/-- A pump that has not read anything yet. -/
def empty (mtu : Nat) : Pump :=
  { pool := .empty mtu, traffic := .zero, tcp := some [], udp := some [], stopped := false }

/-- The queue of one of the engines. -/
def queue (p : Pump) : Protocol → Queue
  | .tcp => p.tcp
  | .udp => p.udp

/-- A pump with another queue of one of the engines. -/
def withQueue (p : Pump) (protocol : Protocol) (queue : Queue) : Pump :=
  match protocol with
  | .tcp => { p with tcp := queue }
  | .udp => { p with udp := queue }

/-- Whether a failed read is tried again. -/
def isRetried (fault : Fault) : Bool :=
  fault.kind = .interrupted || fault.kind = .wouldBlock

/-- Hand what was read to its engine. -/
def route (p : Pump) (buffer : List UInt8) : Pump :=
  let dropped := { p with pool := p.pool.release buffer }
  match Datagram.parse buffer with
  | .error _ => dropped
  | .ok d =>
    match d.headers.protocol with
    | .tcp =>
      match p.tcp with
      | some queue => { p with tcp := some (queue ++ [d]) }
      | none => dropped
    | .udp =>
      match p.udp with
      | some queue => { p with udp := some (queue ++ [d]) }
      | none => dropped

/-- Read once.  The fault is one that ends the reading. -/
def read (p : Pump) (reading : Reading) : Pump × Option Fault :=
  let (pool, buffer) := p.pool.acquire
  match reading with
  | .failed fault =>
    let p := { p with pool := pool.release buffer }
    if isRetried fault then (p, none) else ({ p with stopped := true }, some fault)
  | .data bytes =>
    let count := min bytes.length buffer.length
    let filled := Bytes.overwrite buffer 0 (bytes.take count)
    if count = 0 then ({ p with pool := pool.release filled }, none)
    else (route { p with pool, traffic := p.traffic.add count } (filled.take count), none)

/-- The stop signal ends the read that is under way. -/
def stop (p : Pump) : Pump :=
  let (pool, buffer) := p.pool.acquire
  { p with pool := pool.release buffer, stopped := true }

/-- Read until a read fails for good. -/
def readAll (p : Pump) : List Reading → Pump × Option Fault
  | [] => (p, none)
  | reading :: rest =>
    match p.read reading with
    | (p, none) => readAll p rest
    | (p, some fault) => (p, some fault)

/-- Read until a read fails for good or, after all readings, the stop signal is raised. -/
def run (p : Pump) (readings : List Reading) : Pump × Option Fault :=
  match p.readAll readings with
  | (p, none) => (p.stop, none)
  | (p, some fault) => (p, some fault)

/-- An engine takes the packet that has waited longest, and gives its buffer back. -/
def take? (p : Pump) (protocol : Protocol) : Option (Datagram × Pump) :=
  match p.queue protocol with
  | some (d :: rest) =>
    some (d, { p with pool := p.pool.release d.buffer }.withQueue protocol (some rest))
  | some [] | none => none

/-- An engine takes no packets any more, and those that wait for it are lost. -/
def shut (p : Pump) (protocol : Protocol) : Pump :=
  let waiting := ((p.queue protocol).getD []).map Datagram.buffer
  { p with pool := waiting.foldl Pool.release p.pool }.withQueue protocol none

/-- The engines have handled the packets that wait for them. -/
def settle (p : Pump) : Pump :=
  let waiting := (p.tcp.getD [] ++ p.udp.getD []).map Datagram.buffer
  { p with pool := waiting.foldl Pool.release p.pool, tcp := p.tcp.map fun _ => []
           udp := p.udp.map fun _ => [] }

end Pump

end FlowRelay.Device
