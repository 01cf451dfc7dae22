import FlowRelay.Proofs.Flow.Store
import FlowRelay.Proofs.Packet.Response
import FlowRelay.Tcp.Engine

/-!
# FlowRelay.Proofs.Tcp.View

What there is to see of one connection: the connection itself, the work under way for it, the
packets that the device got from it and the data that its outbound socket has taken.

1. *Replies* (`Reply`): a packet counts as what the device reads in it.
2. *Views* (`View`): what the small operations of the engine change about the connection that they
   are for, and that they leave all others alone (`_of_ne`).
3. *Data* (`inspect_eq`): what inspection does to a connection and which bodies it delivers.
-/

namespace FlowRelay.Tcp

open Packet

/-! ## Replies -/

/-- What the device reads in a packet. -/
structure Reply where
  flags : UInt8
  sequence : UInt32
  acknowledgement : UInt32
  payload : List UInt8
  deriving DecidableEq, Repr

namespace Reply

/-- Read the bytes of a packet, if they are a TCP packet. -/
def ofBytes? (bytes : List UInt8) : Option Reply :=
  match Datagram.parse bytes with
  | .error _ => none
  | .ok d => d.headers.tcp?.map fun tcp =>
      ⟨tcp.flags, tcp.sequence, tcp.acknowledgement, d.payload⟩

/-- A response is read with the control fields that were asked for and with what was staged. -/
theorem ofBytes?_writeTcpResponse {h : Headers} {buffer : List UInt8} {flags : UInt8}
    {sequence acknowledgement : UInt32} {length n : Nat}
    (hok : (h.writeTcpResponse buffer flags sequence acknowledgement length).result = .ok n) :
    ofBytes? ((h.writeTcpResponse buffer flags sequence acknowledgement length).buffer.take n) =
      some ⟨flags, sequence, acknowledgement,
        (buffer.drop Headers.tcpPayloadOffset).take length⟩ := by
  obtain ⟨d, t, hparse, -, htcp, -, -, hpayload⟩ := Datagram.parse_writeTcpResponse hok
  simp only [ofBytes?, hparse, htcp, Option.map_some, hpayload]
  rfl

end Reply

/-- The connection after data was shown to its inspector, if it has one. -/
def Connection.inspected (c : Connection) (direction : Http.Direction) (data : List UInt8) :
    Connection :=
  { c with inspector := c.inspector.map fun inspector => (inspector.push direction data).1 }

/-- The bodies that data of one direction completes, if the connection is inspected. -/
def Connection.bodies (c : Connection) (direction : Http.Direction) (data : List UInt8) :
    List (List UInt8) :=
  match c.inspector with
  | none => []
  | some inspector =>
    match (inspector.push direction data).2 with
    | .error _ => []
    | .ok bodies => bodies

namespace Engine

variable {e : Engine} {s : Surroundings} {i id : Nat} {c : Connection}

/-! ## Views -/

/-- The packets that the device got from a connection, as it reads them. -/
def sent (e : Engine) (id : Nat) : List (Option Reply) :=
  (e.outbox.filter (·.connection = some id)).map (Reply.ofBytes? ·.buffer)

/-- The data that the outbound socket of a connection has taken. -/
def handedTo (e : Engine) (id : Nat) : List UInt8 :=
  (e.handed.filter (·.connection = id)).flatMap Handed.payload

/-- What there is to see of a connection. -/
structure View where
  connection : Option Connection
  /-- How many reads of it are under way. -/
  reads : Nat
  /-- How many writers of it there are. -/
  writes : Nat
  sent : List (Option Reply)
  handed : List UInt8

/-- What there is to see of a connection. -/
def view (e : Engine) (id : Nat) : View :=
  { connection := e.store.connection? id
    reads := e.tasks.count (.read id)
    writes := e.tasks.count (.write id)
    sent := e.sent id
    handed := e.handedTo id }

/-- What there is to see of a connection, after it became this one with so much work under way, and
sent so many packets and handed out so much data. -/
def View.after (v : View) (c : Connection) (reads writes : Nat) (replies : List Reply)
    (handed : List UInt8) : View :=
  ⟨some c, reads, writes, v.sent ++ replies.map some, v.handed ++ handed⟩

/-! ## Changes of the connection -/

/-- A change of a connection shows in the connection alone. -/
theorem view_update (e : Engine) (id : Nat) (f : Connection → Connection) :
    (e.update id f).view id =
      { e.view id with connection := (e.view id).connection.map f } := by
  rw [view, Engine.update, Flow.Store.connection?_update_self]
  rfl

/-- A change of one connection does not show in another. -/
theorem view_update_of_ne (h : id ≠ i) (f : Connection → Connection) :
    (e.update id f).view i = e.view i := by
  rw [view, update, Flow.Store.connection?_update_of_ne h]
  rfl

/-- Taking a connection out of the table closes it. -/
theorem view_terminate (e : Engine) (id : Nat) :
    (e.terminate id).view id =
      { e.view id with connection := (e.view id).connection.map Connection.close } := by
  unfold terminate Flow.Store.terminate
  cases hc : e.store.connection? id with
  | none =>
      rw [view, hc]
      rfl
  | some c => exact view_update e id Connection.close

theorem view_terminate_of_ne (h : id ≠ i) : (e.terminate id).view i = e.view i := by
  unfold terminate Flow.Store.terminate
  cases e.store.connection? id with
  | none => rfl
  | some c => exact view_update_of_ne h Connection.close

/-! ## Packets -/

/-- The engine after a packet was sent. -/
def post (e : Engine) (connection : Option Nat) (buffer : List UInt8) : Engine :=
  { e with outbox := e.outbox ++ [⟨connection, buffer⟩] }

/-- A packet of the connection is one more that was sent. -/
theorem view_post (e : Engine) (id : Nat) (buffer : List UInt8) :
    (e.post id buffer).view id =
      { e.view id with sent := (e.view id).sent ++ [Reply.ofBytes? buffer] } := by
  simp [view, post, sent, handedTo]

/-- A packet of another connection does not show. -/
theorem view_post_of_ne {connection : Option Nat} (h : connection ≠ some i)
    (buffer : List UInt8) : (e.post connection buffer).view i = e.view i := by
  simp [view, post, sent, handedTo, h]

/-- The packet that was written, if somebody takes it. -/
def taken? (s : Surroundings) (w : Written) : Option (List UInt8) :=
  match w.result with
  | .error _ => none
  | .ok n => if s.deviceOpen then some (w.buffer.take n) else none

/-- Only what was written is taken. -/
theorem taken?_eq_some {w : Written} {packet : List UInt8} (h : taken? s w = some packet) :
    ∃ n, w.result = .ok n ∧ packet = w.buffer.take n := by
  unfold taken? at h
  cases hw : w.result with
  | error x =>
      rw [hw] at h
      contradiction
  | ok n =>
      rw [hw] at h
      exact ⟨n, rfl, (Option.some.inj (Option.ite_none_right_eq_some.mp h).2).symm⟩

/-- A packet that is taken is sent, and nothing else happens. -/
theorem fst_emit (e : Engine) (s : Surroundings) (connection : Option Nat) (w : Written) :
    (e.emit s connection w).1 = (taken? s w).elim e (e.post connection) := by
  unfold emit taken?
  cases w.result with
  | error x => rfl
  | ok n => cases s.deviceOpen <;> rfl

/-- The RST of a flow that cannot be opened. -/
theorem openConnection_of_error {fault : Fault} (hsocket : s.socket = .error fault) (e : Engine)
    (initial : UInt32) (key : Flow.Key) (headers : Headers) (syn : Packet.Tcp) :
    (e.openConnection s initial key headers syn).1 =
      (e.emit s none (headers.swap.writeTcpResponse e.blank (Flag.rst ||| Flag.ack) 0
        (syn.sequence + 1) 0)).1 := by
  simp only [openConnection, hsocket]
  split
  · next heq => rw [heq]
  · next heq => rw [heq]

/-- The inspector of a flow that is opened, if the flow is inspected. -/
def inspectorOf (e : Engine) (key : Flow.Key) : Option Http.Inspector :=
  if e.inspecting && e.config.inspectPorts.contains key.destination.port then
    some Http.Inspector.empty
  else none

/-- A flow that can be opened gets its connection, and its inspector if it is inspected. -/
theorem openConnection_eq (hsocket : s.socket = .ok ()) (e : Engine) (initial : UInt32)
    (key : Flow.Key) (headers : Headers) (syn : Packet.Tcp) :
    e.openConnection s initial key headers syn =
      { e with store := (e.store.openNew s.now e.config.tcpIdle
          (.make key headers.swap initial syn.sequence (e.inspectorOf key) s.now)).1 }.register s
        (.connect e.store.connections.length (s.proxy.resolve key.destination)) := by
  simp only [openConnection, hsocket]
  rfl

/-! ## Work -/

/-- The end of work for one connection does not show in another. -/
theorem view_finishTask_of_ne {task : Task} (h : task.connection ≠ i) :
    (e.finishTask task).view i = e.view i := by
  cases task <;> simp_all [view, finishTask, sent, handedTo, List.count_erase, Task.connection]

/-- The engine after a task was begun. -/
def begin (e : Engine) (task : Task) : Engine := { e with tasks := e.tasks ++ [task] }

theorem view_begin_connect (e : Engine) (id i : Nat) (target : Net.Endpoint) :
    (e.begin (.connect id target)).view i = e.view i := by
  simp [view, begin, sent, handedTo]

theorem view_begin_of_ne {task : Task} (h : task.connection ≠ i) :
    (e.begin task).view i = e.view i := by
  cases task <;> simp_all [view, begin, sent, handedTo, Task.connection]

/-! ## Data -/

/-- Data for the socket of the connection is handed over. -/
theorem view_hand (e : Engine) (id : Nat) (payload : List UInt8) :
    (e.hand id payload).view id =
      { e.view id with handed := (e.view id).handed ++ payload } := by
  unfold hand
  cases payload with
  | nil => simp
  | cons b rest => simp [view, sent, handedTo]

theorem view_hand_of_ne (h : id ≠ i) (payload : List UInt8) :
    (e.hand id payload).view i = e.view i := by
  unfold hand
  split
  · rfl
  · simp [view, sent, handedTo, h]

/-- Inspection moves the inspector of the connection on and delivers what it completes. -/
theorem inspect_eq (hc : e.store.connection? id = some c) (direction : Http.Direction)
    (data : List UInt8) :
    e.inspect id direction data =
      { e.update id (·.inspected direction data) with
        delivered := e.delivered ++ (c.bodies direction data).map fun body =>
          ⟨c.key, direction, body⟩ } := by
  have hupdate (f : Connection → Connection) (hf : f c = c.inspected direction data) :
      e.update id f = e.update id (·.inspected direction data) :=
    congrArg (fun store => { e with store })
      (Flow.Store.update_congr hc (g := (·.inspected direction data)) hf)
  unfold inspect
  simp only [hc]
  cases hinspector : c.inspector with
  | none =>
      have hsame : c = c.inspected direction data := by
        rw [Connection.inspected, hinspector, Option.map_none, ← hinspector]
      have hstore : e.update id (fun c => c) = e :=
        congrArg (fun connections => { e with store := { e.store with connections } })
          (List.modify_id id e.store.connections)
      simp only [Connection.bodies, hinspector, List.map_nil, List.append_nil]
      rw [← hupdate (fun c => c) hsame, hstore]
  | some inspector =>
      have hpushed : { c with inspector := some (inspector.push direction data).1 } =
          c.inspected direction data := by
        rw [Connection.inspected, hinspector, Option.map_some]
      have hnoted := hupdate
        (fun c => { c with inspector := some (inspector.push direction data).1 }) hpushed
      simp only [Connection.bodies, hinspector, hnoted]
      cases (inspector.push direction data).2 with
      | error x => simp only [List.map_nil, List.append_nil]; rfl
      | ok bodies => rfl

theorem inspect_of_none (hnone : e.store.connection? id = none) (direction : Http.Direction)
    (data : List UInt8) : e.inspect id direction data = e := by
  rw [inspect, hnone]

/-- Inspection changes the inspector in the store. -/
theorem store_inspect (e : Engine) (id : Nat) (direction : Http.Direction) (data : List UInt8) :
    (e.inspect id direction data).store = e.store.update id (·.inspected direction data) := by
  cases hc : e.store.connection? id with
  | none => rw [inspect_of_none hc, Flow.Store.update_of_none hc]
  | some c => rw [inspect_eq hc, update]

theorem tasks_inspect (e : Engine) (id : Nat) (direction : Http.Direction) (data : List UInt8) :
    (e.inspect id direction data).tasks = e.tasks := by
  cases hc : e.store.connection? id with
  | none => rw [inspect_of_none hc]
  | some c => rw [inspect_eq hc, update]

theorem config_inspect (e : Engine) (id : Nat) (direction : Http.Direction)
    (data : List UInt8) : (e.inspect id direction data).config = e.config := by
  cases hc : e.store.connection? id with
  | none => rw [inspect_of_none hc]
  | some c => rw [inspect_eq hc, update]

theorem blank_inspect (e : Engine) (id : Nat) (direction : Http.Direction) (data : List UInt8) :
    (e.inspect id direction data).blank = e.blank := by
  rw [blank, config_inspect, blank]

/-- Inspection changes nothing about a connection but its inspector. -/
theorem view_inspect (e : Engine) (id : Nat) (direction : Http.Direction) (data : List UInt8) :
    (e.inspect id direction data).view id =
      { e.view id with
        connection := (e.view id).connection.map (·.inspected direction data) } := by
  cases hc : e.store.connection? id with
  | none =>
      rw [inspect_of_none hc, view, hc]
      rfl
  | some c =>
      rw [inspect_eq hc]
      exact view_update e id _

theorem view_inspect_of_ne (h : id ≠ i) (direction : Http.Direction) (data : List UInt8) :
    (e.inspect id direction data).view i = e.view i := by
  cases hc : e.store.connection? id with
  | none => rw [inspect_of_none hc]
  | some c =>
      rw [inspect_eq hc]
      exact view_update_of_ne h _

end Engine

end FlowRelay.Tcp
