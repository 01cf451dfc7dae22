import FlowRelay.Proofs.Tcp.View

/-!
# FlowRelay.Proofs.Tcp.Act

The small things that the engine does for one connection.

1. *Progress* (`Progress`): what changes about a connection while it is in use.
2. *Packets* (`Connection.packet?`): what becomes of a response of the connection.  It is heard if
   a buffer has room for it and somebody takes it (`Connection.heard`).
3. *Acts* (`Act`): the connection makes progress or leaves the table, a packet is sent, data is
   inspected or handed to the outbound socket, work begins or ends.
4. *Effects*: what acts do to the connection (`Connection.after`), to the work under way
   (`Act.work`) and to what there is to see (`View.perform`).  They do not touch other connections.
-/

namespace FlowRelay.Tcp

open Packet

/-! ## Progress -/

/-- What changes about a connection while it is in use. -/
structure Progress where
  status : Status
  sequence : UInt32
  acknowledgement : UInt32
  theirAcknowledgement : UInt32
  writer : WriterQueue
  taken : Nat
  lastActive : Instant
  lastRead : Instant
  bytesRead : Nat
  bytesWritten : Nat

namespace Connection

variable {c : Connection} {config : Config} {s : Surroundings} {flags : UInt8}
  {payload packet : List UInt8}

/-- How far a connection has come. -/
def progress (c : Connection) : Progress := { c with }

/-- The connection after it made progress.  It keeps its flow, its template and its inspector, and
is open or closed as before. -/
def advance (c : Connection) (f : Progress → Progress) : Connection := { f c.progress, c with }

/-! ## Packets -/

/-- A response of the connection, written into a blank buffer. -/
def written (c : Connection) (config : Config) (flags : UInt8) (payload : List UInt8) : Written :=
  c.template.writeTcpResponse
    (Bytes.overwrite (List.replicate config.mtu 0) Headers.tcpPayloadOffset payload) flags
    c.sequence c.acknowledgement payload.length

/-- The packet that becomes of a response, if a buffer has room for it. -/
def packet? (c : Connection) (config : Config) (flags : UInt8) (payload : List UInt8) :
    Option (List UInt8) :=
  if Headers.tcpPayloadOffset + payload.length ≤ config.mtu then
    match (c.written config flags payload).result with
    | .error _ => none
    | .ok n => some ((c.written config flags payload).buffer.take n)
  else none

/-- Whether a response can be written and is taken. -/
def heard (c : Connection) (config : Config) (s : Surroundings) (flags : UInt8)
    (payload : List UInt8) : Bool :=
  s.deviceOpen && (c.packet? config flags payload).isSome

/-- There is a packet only where the payload has room behind the headers and the response could be
written. -/
theorem packet?_eq_some (h : c.packet? config flags payload = some packet) :
    Headers.tcpPayloadOffset + payload.length ≤ config.mtu ∧
      ∃ n, (c.written config flags payload).result = .ok n ∧
        packet = (c.written config flags payload).buffer.take n := by
  unfold packet? at h
  split at h
  · next hroom =>
      split at h
      · contradiction
      · next n hok => exact ⟨hroom, n, hok, (Option.some.inj h).symm⟩
  · contradiction

/-- What was written had room, so it is the packet. -/
theorem packet?_of_ok {n : Nat} (hroom : payload.length ≤ config.mtu - Headers.tcpPayloadOffset)
    (hok : (c.written config flags payload).result = .ok n) :
    c.packet? config flags payload = some ((c.written config flags payload).buffer.take n) := by
  have hfits := (Headers.writeTcpResponse_ok hok).2.1
  have hoffset : Headers.tcpPayloadOffset + payload.length ≤ config.mtu := by
    cases payload with
    | nil =>
        simp only [Bytes.overwrite, List.length_append, List.length_take, List.length_drop,
          List.length_nil, List.length_replicate] at hfits ⊢
        omega
    | cons b rest =>
        simp only [List.length_cons] at hroom ⊢
        omega
  rw [packet?, if_pos hoffset, hok]

/-- What is heard is a packet. -/
theorem exists_packet_of_heard (h : c.heard config s flags payload = true) :
    ∃ packet, c.packet? config flags payload = some packet :=
  Option.isSome_iff_exists.mp (Bool.and_eq_true_iff.mp h).2

/-- The device reads in a packet what was asked for. -/
theorem ofBytes?_packet (h : c.packet? config flags payload = some packet) :
    Reply.ofBytes? packet = some ⟨flags, c.sequence, c.acknowledgement, payload⟩ := by
  obtain ⟨hroom, n, hok, rfl⟩ := packet?_eq_some h
  have hblank : (List.replicate config.mtu (0 : UInt8)).length = config.mtu := List.length_replicate
  refine (Reply.ofBytes?_writeTcpResponse hok).trans ?_
  rw [Bytes.drop_overwrite (by omega), List.take_left]

/-- A response without data leaves the buffer as it comes from the pool. -/
theorem written_nil (c : Connection) (config : Config) (flags : UInt8) :
    c.written config flags [] =
      c.template.writeTcpResponse (List.replicate config.mtu 0) flags c.sequence
        c.acknowledgement 0 := by
  simp only [written, Bytes.overwrite, List.length_nil, Nat.add_zero, List.append_nil,
    List.take_append_drop]

end Connection

/-! ## Acts -/

/-- Work outside the engine for a connection. -/
inductive Work where
  | connect (target : Net.Endpoint)
  | read
  | write

/-- The task that is the work for a connection. -/
def Work.task (id : Nat) : Work → Task
  | .connect target => .connect id target
  | .read => .read id
  | .write => .write id

@[simp] theorem Work.connection_task (w : Work) (id : Nat) : (w.task id).connection = id := by
  cases w <;> rfl

/-- What a task is, whatever connection it is for. -/
def Task.work : Task → Work
  | .connect _ target => .connect target
  | .read _ => .read
  | .write _ => .write

@[simp] theorem Work.work_task (w : Work) (id : Nat) : (w.task id).work = w := by
  cases w <;> rfl

@[simp] theorem Task.task_work (task : Task) : task.work.task task.connection = task := by
  cases task <;> rfl

/-- The small things that are done for a connection. -/
inductive Act where
  /-- The connection makes progress. -/
  | advance (f : Progress → Progress)
  /-- The connection is closed and leaves the table. -/
  | terminate
  /-- A packet with the numbers of the connection is sent to the device. -/
  | say (flags : UInt8) (payload : List UInt8)
  /-- Data is shown to the inspector. -/
  | inspect (direction : Http.Direction) (data : List UInt8)
  /-- The outbound socket has taken data. -/
  | hand (payload : List UInt8)
  | begin (work : Work)
  | finish (work : Work)

namespace Act

/-- What an act does to the connection. -/
def change : Act → Connection → Connection
  | .advance f, c => c.advance f
  | .terminate, c => c.close
  | .inspect direction data, c => c.inspected direction data
  | .say .., c | .hand _, c | .begin _, c | .finish _, c => c

/-- Whether an act takes the connection out of the table. -/
def isTerminate : Act → Bool
  | .terminate => true
  | .advance _ | .say .. | .inspect .. | .hand _ | .begin _ | .finish _ => false

/-- What an act does to the work under way. -/
def work (id : Nat) : Act → List Task → List Task
  | .begin w, tasks => tasks ++ [w.task id]
  | .finish w, tasks => tasks.erase (w.task id)
  | .advance _, tasks | .terminate, tasks | .say .., tasks | .inspect .., tasks
  | .hand _, tasks => tasks

/-- The packet that an act sends for a connection. -/
def packet? (config : Config) (c : Option Connection) : Act → Option (List UInt8)
  | .say flags payload => c.bind (·.packet? config flags payload)
  | .advance _ | .terminate | .inspect .. | .hand _ | .begin _ | .finish _ => none

/-- The data that an act hands to the outbound socket of a connection. -/
def handed (id : Nat) : Act → List Handed
  | .hand payload => if payload.isEmpty then [] else [⟨id, payload⟩]
  | .advance _ | .terminate | .say .. | .inspect .. | .begin _ | .finish _ => []

/-- The bodies that an act delivers for a connection. -/
def delivered (c : Option Connection) : Act → List Http.Delivery
  | .inspect direction data =>
    c.elim [] fun c => (c.bodies direction data).map (⟨c.key, direction, ·⟩)
  | .advance _ | .terminate | .say .. | .hand _ | .begin _ | .finish _ => []

/-- The data that an act shows to the inspector of a connection. -/
def shown? : Act → Option (Http.Direction × List UInt8)
  | .inspect direction data => some (direction, data)
  | .advance _ | .terminate | .say .. | .hand _ | .begin _ | .finish _ => none

/-- Whether an act sends nothing. -/
def isSilent : Act → Bool
  | .say .. => false
  | .advance _ | .terminate | .inspect .. | .hand _ | .begin _ | .finish _ => true

/-- `packet?` has nothing for an act other than `say`. -/
theorem packet?_of_silent {a : Act} (h : a.isSilent = true) (config : Config)
    (c : Option Connection) : a.packet? config c = none := by
  cases a with
  | say => contradiction
  | advance | terminate | inspect | hand | begin | finish => rfl

@[simp] theorem key_change (a : Act) (c : Connection) : (a.change c).key = c.key := by
  cases a <;> rfl

@[simp] theorem template_change (a : Act) (c : Connection) :
    (a.change c).template = c.template := by
  cases a <;> rfl

/-- Acts that leave the connection in the table leave it open or closed as it is. -/
theorem closed_change {a : Act} (h : a.isTerminate = false) (c : Connection) :
    (a.change c).closed = c.closed := by
  cases a with
  | terminate => contradiction
  | advance | say | inspect | hand | begin | finish => rfl

/-- An act begins and ends work for its connection alone. -/
theorem mem_work {a : Act} {id : Nat} {task : Task} {tasks : List Task}
    (h : task ∈ a.work id tasks) : task ∈ tasks ∨ task.connection = id := by
  cases a with
  | begin w =>
      refine (List.mem_append.mp h).imp_right fun hnew => ?_
      rw [List.mem_singleton.mp hnew, w.connection_task]
  | finish w => exact .inl (List.mem_of_mem_erase h)
  | advance | terminate | say | inspect | hand => exact .inl h

/-- An act hands data to the socket of its own connection alone. -/
theorem connection_of_mem_handed {a : Act} {id : Nat} {x : Handed} (h : x ∈ a.handed id) :
    x.connection = id := by
  cases a with
  | hand payload =>
      simp only [handed] at h
      split at h
      · contradiction
      · rw [List.mem_singleton.mp h]
  | advance | terminate | say | inspect | begin | finish => contradiction

end Act

namespace Connection

/-- The connection after acts. -/
def after (c : Connection) (acts : List Act) : Connection := acts.foldl (fun c a => a.change c) c

/-- The packets that acts send for a connection. -/
def packets (config : Config) (c : Connection) : List Act → List (List UInt8)
  | [] => []
  | a :: acts => (a.packet? config (some c)).toList ++ (a.change c).packets config acts

/-- Silent acts send no packets. -/
theorem packets_of_silent (config : Config) (c : Connection) {acts : List Act}
    (h : acts.all Act.isSilent = true) : c.packets config acts = [] := by
  induction acts generalizing c with
  | nil => rfl
  | cons a acts ih =>
      rw [List.all_cons, Bool.and_eq_true] at h
      rw [packets, a.packet?_of_silent h.1, ih _ h.2]
      rfl

/-- Later acts send their packets with the numbers that earlier ones have left. -/
theorem packets_append (config : Config) (c : Connection) (xs ys : List Act) :
    c.packets config (xs ++ ys) = c.packets config xs ++ (c.after xs).packets config ys := by
  induction xs generalizing c with
  | nil => rfl
  | cons a xs ih =>
      rw [List.cons_append, packets, ih, packets, List.append_assoc]
      rfl

end Connection

namespace Engine

variable {e : Engine} {s : Surroundings} {i id : Nat} {c : Connection} {config : Config}

/-- Send a packet with the numbers of a connection, if a buffer has room for it. -/
def say (e : Engine) (id : Nat) (flags : UInt8) (payload : List UInt8) : Engine :=
  match (e.store.connection? id).bind (·.packet? e.config flags payload) with
  | none => e
  | some packet => e.post id packet

/-- Do one thing for a connection. -/
def perform (e : Engine) (id : Nat) : Act → Engine
  | .advance f => e.update id (·.advance f)
  | .terminate => e.terminate id
  | .say flags payload => e.say id flags payload
  | .inspect direction data => e.inspect id direction data
  | .hand payload => e.hand id payload
  | .begin w => e.begin (w.task id)
  | .finish w => e.finishTask (w.task id)

/-- Do one thing after the other for a connection. -/
def carryOut (e : Engine) (id : Nat) (acts : List Act) : Engine :=
  acts.foldl (fun e a => e.perform id a) e

@[simp] theorem carryOut_nil (e : Engine) (id : Nat) : e.carryOut id [] = e := rfl

theorem carryOut_cons (e : Engine) (id : Nat) (a : Act) (acts : List Act) :
    e.carryOut id (a :: acts) = (e.perform id a).carryOut id acts := rfl

/-- `carryOut` goes through one list of acts after the other. -/
theorem carryOut_append (e : Engine) (id : Nat) (xs ys : List Act) :
    e.carryOut id (xs ++ ys) = (e.carryOut id xs).carryOut id ys := List.foldl_append

/-- What every act leaves as it is stays. -/
theorem carryOut_induction {motive : Engine → Prop} (start : motive e)
    (step : ∀ e a, motive e → motive (e.perform id a)) (acts : List Act) :
    motive (e.carryOut id acts) := by
  induction acts generalizing e with
  | nil => exact start
  | cons a acts ih => exact ih (step e a start)

/-- `say` sends the packet that becomes of the response. -/
theorem say_of_some {flags : UInt8} {payload packet : List UInt8}
    (h : (e.store.connection? id).bind (·.packet? e.config flags payload) = some packet) :
    e.say id flags payload = e.post id packet := by
  rw [say, h]

/-- `say` does nothing where no packet becomes of the response. -/
theorem say_of_none {flags : UInt8} {payload : List UInt8}
    (h : (e.store.connection? id).bind (·.packet? e.config flags payload) = none) :
    e.say id flags payload = e := by
  rw [say, h]

/-- A read returns no more than there is room for. -/
theorem length_le_readRoom {result : Except Fault (List UInt8)} {data : List UInt8}
    (h : result.map (·.take e.readRoom) = .ok data) : data.length ≤ e.readRoom := by
  cases result with
  | error x => contradiction
  | ok all =>
      injection h with hdata
      rw [← hdata]
      exact List.length_take_le _ _

/-- What the engine makes of a response that a read could have brought. -/
theorem emit_written (hc : e.store.connection? id = some c) (s : Surroundings) (flags : UInt8)
    {payload : List UInt8} (hroom : payload.length ≤ e.readRoom) :
    ∃ x, e.emit s id (c.written e.config flags payload) =
      if c.heard e.config s flags payload then (e.say id flags payload, .ok ())
      else (e, .error x) := by
  unfold emit Connection.heard
  cases hpacket : c.packet? e.config flags payload with
  | some packet =>
      obtain ⟨-, n, hok, rfl⟩ := Connection.packet?_eq_some hpacket
      refine ⟨.deviceStopped, ?_⟩
      have hsay : e.say id flags payload = e.post id _ :=
        say_of_some (by rw [hc, Option.bind_some, hpacket])
      rw [hok, hsay, Option.isSome_some, Bool.and_true]
      rfl
  | none =>
      simp only [Option.isSome_none, Bool.and_false, Bool.false_eq_true, if_false]
      cases hresult : (c.written e.config flags payload).result with
      | error x => exact ⟨.packet x, rfl⟩
      | ok n =>
          rw [Connection.packet?_of_ok hroom hresult] at hpacket
          contradiction

/-- What the engine makes of a response without data. -/
theorem send_eq (hc : e.store.connection? id = some c) (s : Surroundings) (flags : UInt8) :
    ∃ x, e.send s id c flags =
      if c.heard e.config s flags [] then (e.say id flags [], .ok ()) else (e, .error x) := by
  have hroom : ([] : List UInt8).length ≤ e.readRoom := Nat.zero_le _
  obtain ⟨x, hemit⟩ := emit_written hc s flags hroom
  rw [c.written_nil] at hemit
  exact ⟨x, hemit⟩

/-! ## Effects -/

/-- An act changes its connection in the store, or takes it out of the table. -/
theorem store_perform (e : Engine) (id : Nat) (a : Act) :
    (e.perform id a).store =
      if a.isTerminate then e.store.terminate id else e.store.update id a.change := by
  have hkeep : e.store = e.store.update id fun c => c :=
    congrArg (Flow.Store.mk · _) (List.modify_id id e.store.connections).symm
  cases a with
  | say flags payload =>
      refine Eq.trans ?_ hkeep
      simp only [perform, say]
      split <;> rfl
  | inspect direction data => exact store_inspect e id direction data
  | hand payload =>
      refine Eq.trans ?_ hkeep
      simp only [perform, hand]
      split <;> rfl
  | begin | finish => exact hkeep
  | advance | terminate => rfl

@[simp] theorem config_perform (e : Engine) (id : Nat) (a : Act) :
    (e.perform id a).config = e.config := by
  cases a with
  | say flags payload =>
      simp only [perform, say]
      split <;> rfl
  | inspect direction data => exact config_inspect e id direction data
  | hand payload =>
      simp only [perform, hand]
      split <;> rfl
  | advance | terminate | begin | finish => rfl

/-- Acts do not turn inspection on or off. -/
@[simp] theorem inspecting_perform (e : Engine) (id : Nat) (a : Act) :
    (e.perform id a).inspecting = e.inspecting := by
  cases a with
  | say flags payload =>
      simp only [perform, say]
      split <;> rfl
  | inspect direction data =>
      cases hc : e.store.connection? id with
      | none => rw [perform, inspect_of_none hc]
      | some c => rw [perform, inspect_eq hc, update]
  | hand payload =>
      simp only [perform, hand]
      split <;> rfl
  | advance | terminate | begin | finish => rfl

@[simp] theorem config_carryOut (e : Engine) (id : Nat) (acts : List Act) :
    (e.carryOut id acts).config = e.config :=
  carryOut_induction (motive := fun e' => e'.config = e.config) rfl
    (fun e a h => (config_perform e id a).trans h) acts

/-- An act begins and ends the work that `Act.work` says. -/
theorem tasks_perform (e : Engine) (id : Nat) (a : Act) :
    (e.perform id a).tasks = a.work id e.tasks := by
  cases a with
  | say flags payload =>
      simp only [perform, say]
      split <;> rfl
  | inspect direction data => exact tasks_inspect e id direction data
  | hand payload =>
      simp only [perform, hand]
      split <;> rfl
  | advance | terminate | begin | finish => rfl

/-- An act sends the packet that `Act.packet?` says. -/
theorem outbox_perform (e : Engine) (id : Nat) (a : Act) :
    (e.perform id a).outbox =
      e.outbox ++
        (a.packet? e.config (e.store.connection? id)).toList.map (⟨some id, ·⟩) := by
  cases a with
  | say flags payload =>
      simp only [perform, say, Act.packet?]
      cases (e.store.connection? id).bind (·.packet? e.config flags payload) with
      | none => exact (List.append_nil _).symm
      | some packet => rfl
  | inspect direction data =>
      refine Eq.trans ?_ (List.append_nil _).symm
      cases hc : e.store.connection? id with
      | none => rw [perform, inspect_of_none hc]
      | some c => rw [perform, inspect_eq hc, update]
  | hand payload =>
      refine Eq.trans ?_ (List.append_nil _).symm
      simp only [perform, hand]
      split <;> rfl
  | advance | terminate | begin | finish => exact (List.append_nil _).symm

/-- An act hands over the data that `Act.handed` says. -/
theorem handed_perform (e : Engine) (id : Nat) (a : Act) :
    (e.perform id a).handed = e.handed ++ a.handed id := by
  cases a with
  | say flags payload =>
      refine Eq.trans ?_ (List.append_nil _).symm
      simp only [perform, say]
      split <;> rfl
  | inspect direction data =>
      refine Eq.trans ?_ (List.append_nil _).symm
      cases hc : e.store.connection? id with
      | none => rw [perform, inspect_of_none hc]
      | some c => rw [perform, inspect_eq hc, update]
  | hand payload =>
      simp only [perform, hand, Act.handed]
      split
      · exact (List.append_nil _).symm
      · rfl
  | advance | terminate | begin | finish => exact (List.append_nil _).symm

/-- An act delivers the bodies that `Act.delivered` says. -/
theorem delivered_perform (e : Engine) (id : Nat) (a : Act) :
    (e.perform id a).delivered = e.delivered ++ a.delivered (e.store.connection? id) := by
  cases a with
  | say flags payload =>
      refine Eq.trans ?_ (List.append_nil _).symm
      simp only [perform, say]
      split <;> rfl
  | inspect direction data =>
      cases hc : e.store.connection? id with
      | none =>
          rw [perform, inspect_of_none hc]
          exact (List.append_nil _).symm
      | some c =>
          rw [perform, inspect_eq hc]
          rfl
  | hand payload =>
      refine Eq.trans ?_ (List.append_nil _).symm
      simp only [perform, hand]
      split <;> rfl
  | advance | terminate | begin | finish => exact (List.append_nil _).symm

/-- Acts for one connection do not show in another. -/
theorem view_perform_of_ne (h : id ≠ i) (e : Engine) (a : Act) :
    (e.perform id a).view i = e.view i := by
  cases a with
  | advance f => exact view_update_of_ne h _
  | terminate => exact view_terminate_of_ne h
  | say flags payload =>
      simp only [perform, say]
      split
      · rfl
      · exact view_post_of_ne (by simpa using h) _
  | inspect direction data => exact view_inspect_of_ne h _ _
  | hand payload => exact view_hand_of_ne h _
  | begin w => exact view_begin_of_ne (by simpa using h)
  | finish w => exact view_finishTask_of_ne (by simpa using h)

/-- Acts for one connection leave the others as they are. -/
theorem connection?_perform_of_ne (h : id ≠ i) (e : Engine) (a : Act) :
    (e.perform id a).store.connection? i = e.store.connection? i :=
  congrArg View.connection (view_perform_of_ne h e a)

theorem view_carryOut_of_ne (h : id ≠ i) (e : Engine) (acts : List Act) :
    (e.carryOut id acts).view i = e.view i :=
  carryOut_induction (motive := fun e' => e'.view i = e.view i) rfl
    (fun e' a hview => (view_perform_of_ne h e' a).trans hview) acts

namespace View

/-- What there is to see of a connection after an act for it. -/
def perform (v : View) (config : Config) : Act → View
  | .say flags payload =>
    { v with sent := v.sent ++ ((v.connection.bind (·.packet? config flags payload)).map
        Reply.ofBytes?).toList }
  | .hand payload => { v with handed := v.handed ++ payload }
  | .begin .read => { v with reads := v.reads + 1 }
  | .begin .write => { v with writes := v.writes + 1 }
  | .finish .read => { v with reads := v.reads - 1 }
  | .finish .write => { v with writes := v.writes - 1 }
  | .begin (.connect _) | .finish (.connect _) => v
  | a => { v with connection := v.connection.map a.change }

/-- What there is to see of a connection after acts for it. -/
def carryOut (v : View) (config : Config) (acts : List Act) : View :=
  acts.foldl (fun v a => v.perform config a) v

theorem carryOut_cons (v : View) (config : Config) (a : Act) (acts : List Act) :
    v.carryOut config (a :: acts) = (v.perform config a).carryOut config acts := rfl

theorem carryOut_append (v : View) (config : Config) (xs ys : List Act) :
    v.carryOut config (xs ++ ys) = (v.carryOut config xs).carryOut config ys := List.foldl_append

/-- There is to see what there is after so much has happened since `v`. -/
def Shows (v' v : View) (c : Connection) (reads writes : Nat) (replies : List Reply)
    (handed : List UInt8) : Prop :=
  v' = v.after c reads writes replies handed

namespace Shows

variable {v v' : View} {c c' : Connection} {reads writes : Nat} {replies : List Reply}
  {handed payload : List UInt8} {flags : UInt8} {config : Config}

/-- Nothing has happened yet. -/
theorem start (hc : v.connection = some c) : v.Shows v c v.reads v.writes [] [] := by
  simp [Shows, View.after, ← hc]

/-- Progress of the connection shows in the connection alone. -/
theorem advance (h : v'.Shows v c reads writes replies handed) (config : Config)
    (f : Progress → Progress) :
    (v'.perform config (.advance f)).Shows v (c.advance f) reads writes replies handed := by
  rw [Shows, h]
  rfl

theorem terminate (h : v'.Shows v c reads writes replies handed) (config : Config) :
    (v'.perform config .terminate).Shows v c.close reads writes replies handed := by
  rw [Shows, h]
  rfl

theorem inspect (h : v'.Shows v c reads writes replies handed) (config : Config)
    (direction : Http.Direction) (data : List UInt8) :
    (v'.perform config (.inspect direction data)).Shows v (c.inspected direction data) reads writes
      replies handed := by
  rw [Shows, h]
  rfl

/-- A packet that is sent is one more reply. -/
theorem say (h : v'.Shows v c reads writes replies handed) {packet : List UInt8} {r : Reply}
    (hpacket : c.packet? config flags payload = some packet)
    (hread : Reply.ofBytes? packet = some r) :
    (v'.perform config (.say flags payload)).Shows v c reads writes (replies ++ [r]) handed := by
  rw [Shows, h]
  simp [perform, View.after, hpacket, hread]

theorem hand (h : v'.Shows v c reads writes replies handed) (config : Config)
    (payload : List UInt8) :
    (v'.perform config (.hand payload)).Shows v c reads writes replies (handed ++ payload) := by
  rw [Shows, h]
  simp [perform, View.after]

theorem beginRead (h : v'.Shows v c reads writes replies handed) (config : Config) :
    (v'.perform config (.begin .read)).Shows v c (reads + 1) writes replies handed := by
  rw [Shows, h]
  rfl

theorem beginWrite (h : v'.Shows v c reads writes replies handed) (config : Config) :
    (v'.perform config (.begin .write)).Shows v c reads (writes + 1) replies handed := by
  rw [Shows, h]
  rfl

theorem finishRead (h : v'.Shows v c reads writes replies handed) (config : Config) :
    (v'.perform config (.finish .read)).Shows v c (reads - 1) writes replies handed := by
  rw [Shows, h]
  rfl

theorem finishWrite (h : v'.Shows v c reads writes replies handed) (config : Config) :
    (v'.perform config (.finish .write)).Shows v c reads (writes - 1) replies handed := by
  rw [Shows, h]
  rfl

end Shows

end View

/-- `View.perform` is what an act changes about the view of its connection. -/
theorem view_perform (e : Engine) (id : Nat) (a : Act) :
    (e.perform id a).view id = (e.view id).perform e.config a := by
  cases a with
  | advance f => exact view_update e id _
  | terminate => exact view_terminate e id
  | say flags payload =>
      simp only [perform, say, View.perform, view]
      cases (e.store.connection? id).bind (·.packet? e.config flags payload) with
      | none => simp
      | some packet => exact view_post e id packet
  | inspect direction data => exact view_inspect e id direction data
  | hand payload => exact view_hand e id payload
  | begin w => cases w <;> simp [view, perform, View.perform, begin, Work.task, sent, handedTo]
  | finish w =>
      cases w <;> simp [view, perform, View.perform, finishTask, Work.task, sent, handedTo]

/-- An act changes the connection in a view as it changes the connection. -/
theorem connection_perform (v : View) (config : Config) (a : Act) :
    (v.perform config a).connection = v.connection.map a.change := by
  have hkeep : v.connection = v.connection.map fun c => c := by simp
  cases a with
  | begin w | finish w => cases w <;> exact hkeep
  | say | hand => exact hkeep
  | advance | terminate | inspect => rfl

/-- The connection that an act is for changes as the act says. -/
theorem connection?_perform (e : Engine) (id : Nat) (a : Act) :
    (e.perform id a).store.connection? id = (e.store.connection? id).map a.change :=
  (congrArg View.connection (view_perform e id a)).trans (connection_perform _ _ _)

/-- Acts bring no connection. -/
theorem connection?_carryOut_of_none (hnone : e.store.connection? i = none) (id : Nat)
    (acts : List Act) : (e.carryOut id acts).store.connection? i = none := by
  refine carryOut_induction (motive := fun e' => e'.store.connection? i = none) hnone
    (fun e' a h => ?_) acts
  by_cases hid : id = i
  · subst hid
    rw [connection?_perform, h, Option.map_none]
  · exact (connection?_perform_of_ne hid e' a).trans h

/-- The connection that acts are for becomes what is left `after` them. -/
theorem connection?_carryOut (hc : e.store.connection? id = some c) (acts : List Act) :
    (e.carryOut id acts).store.connection? id = some (c.after acts) := by
  induction acts generalizing e c with
  | nil => exact hc
  | cons a acts ih => exact ih (by rw [connection?_perform, hc]; rfl)

theorem outbox_carryOut_of_silent {acts : List Act} (h : acts.all Act.isSilent = true) :
    (e.carryOut id acts).outbox = e.outbox := by
  induction acts generalizing e with
  | nil => rfl
  | cons a acts ih =>
      rw [List.all_cons, Bool.and_eq_true] at h
      rw [carryOut_cons, ih h.2, outbox_perform, a.packet?_of_silent h.1]
      exact List.append_nil _

/-- Acts send the packets that the connection says. -/
theorem outbox_carryOut (hc : e.store.connection? id = some c) (acts : List Act) :
    (e.carryOut id acts).outbox =
      e.outbox ++ (c.packets e.config acts).map (⟨some id, ·⟩) := by
  induction acts generalizing e c with
  | nil => exact (List.append_nil _).symm
  | cons a acts ih =>
      have hafter : (e.perform id a).store.connection? id = some (a.change c) := by
        rw [connection?_perform, hc]
        rfl
      rw [carryOut_cons, ih hafter, config_perform, outbox_perform, hc, Connection.packets,
        List.map_append, List.append_assoc]

/-- `View.carryOut` is what acts change about the view of their connection. -/
theorem view_carryOut (e : Engine) (id : Nat) (acts : List Act) :
    (e.carryOut id acts).view id = (e.view id).carryOut e.config acts := by
  induction acts generalizing e with
  | nil => rfl
  | cons a acts ih =>
      rw [carryOut_cons, ih, config_perform, view_perform]
      rfl

end Engine

end FlowRelay.Tcp
