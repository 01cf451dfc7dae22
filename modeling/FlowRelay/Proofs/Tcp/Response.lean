import FlowRelay.Proofs.Packet.Answer
import FlowRelay.Proofs.Tcp.Moves

/-!
# FlowRelay.Proofs.Tcp.Response

The packets that a step of the TCP engine writes for the device.

1. *Responses* (`Response`): what a segment is written from.  A step writes at most one
   (`Engine.response?`), and it may be that nobody takes it.
2. *Outbox* (`outbox_step`): a step adds to the packets for the device what it has written, if that
   is taken, and nothing else.
3. *Addressing* (`response?_cases`): a response is addressed by the template of its connection, or
   answers a SYN whose connection could not be opened, and its payload fits a buffer of the engine.
-/

namespace FlowRelay.Tcp

open Packet

/-! ## Responses -/

/-- What a segment for the device is written from. -/
structure Response where
  connection : Option Nat
  template : Headers
  flags : UInt8
  sequence : UInt32
  acknowledgement : UInt32
  payload : List UInt8
  deriving DecidableEq, Repr

/-- Write a response into a buffer, with its payload staged behind the headers. -/
def Response.write (r : Response) (buffer : List UInt8) : Written :=
  r.template.writeTcpResponse (Bytes.overwrite buffer Headers.tcpPayloadOffset r.payload) r.flags
    r.sequence r.acknowledgement r.payload.length

namespace Connection

/-- A response with the numbers of a connection. -/
def response (c : Connection) (id : Nat) (flags : UInt8) (payload : List UInt8) : Response :=
  ⟨some id, c.template, flags, c.sequence, c.acknowledgement, payload⟩

/-- The RST of a connection that fails. -/
def resetResponse? (c : Connection) (id : Nat) : Option Response :=
  if c.status.isClosing then none else some (c.response id (Flag.rst ||| Flag.ack) [])

/-- What is written when the outbound socket is connected, or could not be. -/
def connectedResponse? (c : Connection) (id : Nat) (result : Except Fault Unit) :
    Option Response :=
  if c.closed || c.status ≠ .synSent then none
  else
    match result with
    | .error _ => { c with sequence := 0 }.resetResponse? id
    | .ok () => some (c.response id (Flag.syn ||| Flag.ack) [])

/-- What is written when a read ends. -/
def receivedResponse? (c : Connection) (id : Nat) (now : Instant) (eofIdle : Nat)
    (result : Except Fault (List UInt8)) : Option Response :=
  if c.closed || c.status = .lastAck then none
  else
    match result with
    | .error _ => c.resetResponse? id
    | .ok [] =>
      if c.lastRead.elapsedMore now eofIdle then none
      else some (c.response id (Flag.fin ||| Flag.ack) [])
    | .ok data => some (c.response id (Flag.psh ||| Flag.ack) data)

/-- What is written when a segment has been written to the outbound socket. -/
def completeResponse? (c : Connection) (id : Nat) (g : Segment) : Option Response :=
  let c := { c with acknowledgement := g.stop }
  if g.fin then
    some (c.response id (if c.status = .lastAck then Flag.ack else Flag.fin ||| Flag.ack) [])
  else if !g.payload.isEmpty then some (c.response id Flag.ack [])
  else none

/-- What is written when the first segment in the queue is written, or could not be. -/
def wroteResponse? (c : Connection) (id : Nat) (result : Except Fault Unit) : Option Response :=
  match c.writer.segments with
  | [] => none
  | g :: _ =>
    if c.closed then none
    else
      match if g.payload.isEmpty then .ok () else result with
      | .error _ => c.resetResponse? id
      | .ok () => c.completeResponse? id g

/-- What is written for a segment of the device.  `writes` tells whether there is a writer. -/
def segmentResponse? (c : Connection) (id : Nat) (writes : Bool) (tcp : Packet.Tcp)
    (payload : List UInt8) : Option Response :=
  if tcp.isRst then none
  else if tcp.isSyn then
    if c.status = .synSent ∨ c.status = .synReceived then none else c.resetResponse? id
  else if !tcp.isFin && !tcp.isAck then none
  else if c.status = .synSent then c.resetResponse? id
  else if payload.isEmpty && !tcp.isFin && c.status ≠ .lastAck then none
  else if c.writer.isAttached && writes then none
  else c.resetResponse? id

end Connection

namespace Engine

variable {e e' e'' : Engine} {s : Surroundings} {id : Nat} {c : Connection}

/-- A SYN of the device opens no connection, for there is no socket for it. -/
structure Refuses (e : Engine) (s : Surroundings) (d : Datagram) : Prop where
  isTcp : ∃ tcp, d.headers.tcp? = some tcp ∧ (tcp.isSyn && !tcp.isAck && !tcp.isRst) = true
  unknown : e.store.table.peek? ⟨d.destination, d.source.port⟩ = none
  socket : ∃ fault, s.socket = .error fault

/-- The RST of a flow that cannot be opened. -/
def refusal (headers : Headers) (syn : Packet.Tcp) : Response :=
  ⟨none, headers.swap, Flag.rst ||| Flag.ack, 0, syn.sequence + 1, []⟩

/-- What is written for a packet of the device. -/
def handleResponse? (e : Engine) (s : Surroundings) (d : Datagram) : Option Response :=
  match d.headers.tcp? with
  | none => none
  | some tcp =>
    match e.store.table.peek? ⟨d.destination, d.source.port⟩ with
    | some id =>
      match e.store.connection? id with
      | none => none
      | some c =>
        if c.closed then none
        else c.segmentResponse? id (e.tasks.contains (.write id)) tcp d.payload
    | none =>
      if tcp.isSyn && !tcp.isAck && !tcp.isRst then
        match s.socket with
        | .error _ => some (refusal d.headers tcp)
        | .ok () => none
      else none

/-- What a step writes for the device. -/
def response? (e : Engine) (s : Surroundings) : Event → Option Response
  | .segment _ d => e.handleResponse? s d
  | .connected id target result =>
    if e.tasks.contains (.connect id target) then
      (e.store.connection? id).bind fun c => c.connectedResponse? id result
    else none
  | .received id result =>
    if e.tasks.contains (.read id) then
      (e.store.connection? id).bind fun c =>
        c.receivedResponse? id s.now e.config.eofIdle (result.map (·.take e.readRoom))
    else none
  | .wrote id result =>
    if e.tasks.contains (.write id) then
      (e.store.connection? id).bind fun c => c.wroteResponse? id result
    else none
  | .took _ _ | .abandoned _ | .closeAll => none

/-- The packet that becomes of a response, if it can be written and is taken. -/
def outgoing (e : Engine) (s : Surroundings) : Option Response → List Outgoing
  | none => []
  | some r =>
    match (r.write e.blank).result with
    | .error _ => []
    | .ok n => if s.deviceOpen then [⟨r.connection, (r.write e.blank).buffer.take n⟩] else []

/-! ## Outbox -/

/-- A response that a read could have brought becomes a packet if it is heard. -/
theorem outgoing_response (e : Engine) (s : Surroundings) (c : Connection) (id : Nat)
    (flags : UInt8) {payload : List UInt8} (hroom : payload.length ≤ e.readRoom) :
    e.outgoing s (some (c.response id flags payload)) =
      if c.heard e.config s flags payload then
        (c.packet? e.config flags payload).toList.map (⟨some id, ·⟩)
      else [] := by
  have hwrite : (c.response id flags payload).write e.blank = c.written e.config flags payload :=
    rfl
  simp only [outgoing, hwrite]
  cases hok : (c.written e.config flags payload).result with
  | error x => simp [Connection.heard, Connection.packet?, hok]
  | ok n =>
      have hpacket := Connection.packet?_of_ok hroom hok
      have hheard : c.heard e.config s flags payload = s.deviceOpen := by
        rw [Connection.heard, hpacket, Option.isSome_some, Bool.and_true]
      rw [hheard, hpacket]
      cases s.deviceOpen <;> rfl

/-- Acts for a connection write a response and nothing else. -/
def Writes (e : Engine) (s : Surroundings) (id : Nat) (c : Connection) (acts : List Act)
    (r : Option Response) : Prop :=
  (c.packets e.config acts).map (⟨some id, ·⟩) = e.outgoing s r

/-- The RST that refuses a SYN is sent, if somebody takes it. -/
theorem outbox_refuse (e : Engine) (s : Surroundings) (headers : Headers) (syn : Packet.Tcp) :
    (e.follow s (.refuse (rejection? e.config s headers syn))).outbox =
      e.outbox ++ e.outgoing s (some (refusal headers syn)) := by
  have hwrite : (refusal headers syn).write e.blank =
      headers.swap.writeTcpResponse e.blank (Flag.rst ||| Flag.ack) 0 (syn.sequence + 1) 0 := by
    simp [Response.write, refusal, Bytes.overwrite]
  have hrejection : rejection? e.config s headers syn =
      taken? s (headers.swap.writeTcpResponse e.blank (Flag.rst ||| Flag.ack) 0
        (syn.sequence + 1) 0) := rfl
  simp only [follow, outgoing, hwrite, hrejection, taken?]
  cases (headers.swap.writeTcpResponse e.blank (Flag.rst ||| Flag.ack) 0
      (syn.sequence + 1) 0).result with
  | error x => exact (List.append_nil _).symm
  | ok n =>
      cases s.deviceOpen with
      | false => exact (List.append_nil _).symm
      | true => rfl

namespace Writes

variable {acts xs ys told mute : List Act} {r : Option Response}

/-- Silent acts write nothing. -/
theorem silent (h : acts.all Act.isSilent = true) : e.Writes s id c acts none := by
  rw [Writes, c.packets_of_silent e.config h]
  rfl

/-- A silent act in front writes nothing of its own. -/
theorem cons {a : Act} (ha : a.isSilent = true) (h : e.Writes s id (a.change c) acts r) :
    e.Writes s id c (a :: acts) r := by
  have hnothing : a.packet? e.config (some c) = none := a.packet?_of_silent ha _ _
  rw [Writes, Connection.packets, hnothing]
  exact h

/-- Silent acts may follow. -/
theorem append (h : e.Writes s id c xs r) (hys : ys.all Act.isSilent = true) :
    e.Writes s id c (xs ++ ys) r := by
  rw [Writes, Connection.packets_append, (c.after xs).packets_of_silent e.config hys,
    List.append_nil]
  exact h

/-- A response that is told writes its packet, whether it is heard or not. -/
theorem tell {flags : UInt8} {payload : List UInt8} (hroom : payload.length ≤ e.readRoom)
    (htold : told.all Act.isSilent = true) (hmute : mute.all Act.isSilent = true) :
    e.Writes s id c (c.tell e.config s flags payload told mute)
      (some (c.response id flags payload)) := by
  rw [Writes, outgoing_response e s c id flags hroom, Connection.tell]
  split
  · rw [Connection.packets, Connection.packets_of_silent _ _ htold, List.append_nil]
    rfl
  · rw [c.packets_of_silent e.config hmute, List.map_nil]

/-- A reset writes its RST. -/
theorem reset (e : Engine) (s : Surroundings) (id : Nat) (c : Connection) :
    e.Writes s id c (c.resetActs e.config s) (c.resetResponse? id) := by
  unfold Tcp.Connection.resetActs Tcp.Connection.resetResponse?
  split
  · exact silent rfl
  · exact tell (Nat.zero_le _) rfl rfl

/-- The end of a connect writes a SYN with an ACK, or a RST. -/
theorem connected (e : Engine) (s : Surroundings) (id : Nat) (c : Connection)
    (result : Except Fault Unit) :
    e.Writes s id c (c.connectedActs e.config s result) (c.connectedResponse? id result) := by
  unfold Tcp.Connection.connectedActs Tcp.Connection.connectedResponse?
  split
  · exact silent rfl
  · cases result with
    | error x => exact cons rfl (reset e s id (c.advance Progress.restart))
    | ok _ => exact tell (Nat.zero_le _) (all_isSilent_begun s .read) rfl

/-- The end of a read writes what was read, a FIN or a RST. -/
theorem received (e : Engine) (s : Surroundings) (id : Nat) (c : Connection)
    (result : Except Fault (List UInt8)) :
    e.Writes s id c (c.receivedActs e.config s (result.map (·.take e.readRoom)))
      (c.receivedResponse? id s.now e.config.eofIdle (result.map (·.take e.readRoom))) := by
  unfold Tcp.Connection.receivedActs Tcp.Connection.receivedResponse?
  split
  · exact silent rfl
  · cases hread : result.map (·.take e.readRoom) with
    | error x => exact reset e s id c
    | ok data =>
        cases data with
        | nil =>
            simp only
            split
            · exact silent rfl
            · exact tell (Nat.zero_le _) rfl rfl
        | cons b rest =>
            -- Inspection leaves the numbers of the connection as they are.
            exact cons rfl (tell (c := c.inspected .response (b :: rest))
              (length_le_readRoom hread) (all_isSilent_begun s .read) rfl)

/-- What is sent when a segment is complete is written with the new acknowledgement. -/
theorem complete (e : Engine) (s : Surroundings) (id : Nat) (c : Connection) (g : Segment) :
    e.Writes s id c (c.completeActs e.config s g) (c.completeResponse? id g) := by
  obtain ⟨inspector, bytesWritten, hafter⟩ := c.after_countActs g
  have hacknowledge {flags : UInt8} {acts : List Act} (hacts : acts.all Act.isSilent = true) :
      e.Writes s id { c with inspector, bytesWritten }
        (c.acknowledgeActs e.config s g flags acts)
        (some ({ c with acknowledgement := g.stop }.response id flags [])) :=
    cons rfl (tell (c := ({ c with inspector, bytesWritten } : Connection).advance
      (·.acknowledge g)) (Nat.zero_le _) hacts rfl)
  rw [Writes, Tcp.Connection.completeActs, Connection.packets_append,
    c.packets_of_silent e.config (Tcp.Connection.all_isSilent_countActs g), List.nil_append, hafter]
  unfold Tcp.Connection.completeResponse?
  simp only
  split
  · split
    · exact hacknowledge rfl
    · exact hacknowledge rfl
  · split
    · exact hacknowledge rfl
    · split
      · exact silent rfl
      · exact silent rfl

/-- The end of a write writes the acknowledgement, or a RST. -/
theorem wrote (e : Engine) (s : Surroundings) (id : Nat) (c : Connection)
    (result : Except Fault Unit) :
    e.Writes s id c (c.wroteActs e.config s result) (c.wroteResponse? id result) := by
  unfold Tcp.Connection.wroteActs Tcp.Connection.wroteResponse?
  cases c.writer.segments with
  | nil => exact silent rfl
  | cons g rest =>
      refine cons rfl ?_
      simp only
      generalize (if g.payload.isEmpty then .ok () else result) = written
      cases written with
      | error x =>
          refine append ?_ rfl
          cases c.closed with
          | true => exact silent rfl
          | false => exact reset e s id (c.advance Progress.leave)
      | ok _ =>
          refine cons rfl ?_
          cases c.closed with
          | true => exact silent rfl
          | false => exact complete e s id (c.advance Progress.leave) g

/-- A segment that cannot be queued resets the connection. -/
theorem enqueue (e : Engine) (s : Surroundings) (id : Nat) (c : Connection) (writes : Bool)
    (g : Segment) :
    e.Writes s id c (c.enqueueActs e.config s writes g)
      (if c.writer.isAttached && writes then none else c.resetResponse? id) := by
  unfold Tcp.Connection.enqueueActs
  cases c.writer with
  | absent | released => exact reset e s id c
  | attached segments =>
      cases writes with
      | true => exact silent rfl
      | false => exact reset e s id c

/-- A segment that arrives writes a RST or nothing. -/
theorem segment (e : Engine) (s : Surroundings) (id : Nat) (c : Connection) (writes : Bool)
    (tcp : Packet.Tcp) (payload : List UInt8) :
    e.Writes s id c (c.segmentActs e.config s writes tcp payload)
      (c.segmentResponse? id writes tcp payload) := by
  unfold Tcp.Connection.segmentActs Tcp.Connection.segmentResponse?
  refine cons rfl ?_
  have hreset := reset e s id (c.advance (·.hear s.now tcp))
  split
  · exact silent rfl
  split
  · split
    · exact silent rfl
    · exact hreset
  split
  · exact silent rfl
  split
  · exact hreset
  refine cons rfl ?_
  split
  · exact silent rfl
  -- The acknowledgement of the handshake changes the status, and closes no side.
  have hclosing : (c.advance (·.settle tcp)).status.isClosing = c.status.isClosing := by
    change (if c.status = .synReceived ∧ tcp.isAck = true then Status.established
      else c.status).isClosing = c.status.isClosing
    split
    · next hstatus =>
        rw [hstatus.1]
        rfl
    · rfl
  have hresponse : (c.advance (·.settle tcp)).resetResponse? id = c.resetResponse? id := by
    rw [Tcp.Connection.resetResponse?, hclosing]
    rfl
  rw [← hresponse]
  exact enqueue e s id ((c.advance (·.hear s.now tcp)).advance (·.settle tcp)) writes
    ⟨tcp.sequence, payload, tcp.isFin⟩

end Writes

/-- What is done for a connection, behind silent acts, sends the response that it writes. -/
theorem outbox_actsFor (xs : List Act) (hxs : xs.all Act.isSilent = true)
    {acts : Connection → List Act} {r : Connection → Option Response}
    (h : ∀ c, e.Writes s id c (xs ++ acts c) (r c)) :
    (e.carryOut id (xs ++ e.actsFor id acts)).outbox =
      e.outbox ++ e.outgoing s ((e.store.connection? id).bind r) := by
  unfold actsFor
  cases hc : e.store.connection? id with
  | none =>
      rw [Option.elim_none, List.append_nil, outbox_carryOut_of_silent hxs]
      exact (List.append_nil _).symm
  | some c =>
      rw [Option.elim_some, outbox_carryOut hc, h c]
      rfl

/-- A packet of the device writes `handleResponse?`. -/
theorem outbox_follow_segment (e : Engine) (s : Surroundings) (initial : UInt32) (d : Datagram) :
    (e.follow s (e.plan s (.segment initial d))).outbox =
      e.outbox ++ e.outgoing s (e.handleResponse? s d) := by
  simp only [plan, handleResponse?]
  cases d.headers.tcp? with
  | none => exact (List.append_nil _).symm
  | some tcp =>
      simp only
      cases e.store.table.peek? ⟨d.destination, d.source.port⟩ with
      | none =>
          simp only
          split
          · cases s.socket with
            | error fault => exact outbox_refuse e s d.headers tcp
            | ok _ =>
                exact (outbox_carryOut_of_silent (all_isSilent_begun s _)).trans
                  (List.append_nil _).symm
          · exact (List.append_nil _).symm
      | some id =>
          have hwrites (c : Connection) : e.Writes s id c
              (if c.closed then []
                else c.segmentActs e.config s (e.tasks.contains (.write id)) tcp d.payload)
              (if c.closed then none
                else c.segmentResponse? id (e.tasks.contains (.write id)) tcp d.payload) := by
            split
            · exact .silent rfl
            · exact .segment e s id c _ tcp d.payload
          have hbind : (e.store.connection? id).bind (fun c =>
              if c.closed then none
              else c.segmentResponse? id (e.tasks.contains (.write id)) tcp d.payload) =
              match e.store.connection? id with
              | none => none
              | some c =>
                if c.closed then none
                else c.segmentResponse? id (e.tasks.contains (.write id)) tcp d.payload := by
            cases e.store.connection? id <;> rfl
          have hsent := outbox_actsFor
            (e := { e with store := (e.store.find? ⟨d.destination, d.source.port⟩).1 }) [] rfl
            hwrites
          exact hsent.trans (congrArg (e.outbox ++ e.outgoing s ·) hbind)

/-- **Outbox**: a step adds to the packets for the device what it has written, if that is taken. -/
theorem outbox_step (e : Engine) (s : Surroundings) (event : Event) :
    (e.step s event).outbox = e.outbox ++ e.outgoing s (e.response? s event) := by
  have hsilent : e.outbox = e.outbox ++ e.outgoing s none := (List.append_nil _).symm
  rw [step_eq]
  cases event with
  | segment initial d => exact outbox_follow_segment e s initial d
  | connected id target result =>
      simp only [plan, response?]
      split
      · exact outbox_actsFor [.finish (.connect target)] rfl fun c =>
          .cons rfl (.connected e s id c result)
      · exact hsilent
  | received id result =>
      simp only [plan, response?]
      split
      · exact outbox_actsFor [.finish .read] rfl fun c =>
          .cons rfl (.received e s id c result)
      · exact hsilent
  | took id count =>
      simp only [plan]
      split
      · refine (outbox_carryOut_of_silent ?_).trans hsilent
        rw [actsFor]
        cases e.store.connection? id with
        | none => rfl
        | some c => exact c.all_isSilent_tookActs count
      · exact hsilent
  | wrote id result =>
      simp only [plan, response?]
      split
      · exact outbox_actsFor [] rfl fun c => .wrote e s id c result
      · exact hsilent
  | abandoned task =>
      simp only [plan]
      split <;> exact hsilent
  | closeAll => exact hsilent

/-! ## Addressing -/

end Engine

/-- A response of a connection, with no more data than a read returns. -/
structure Response.IsOf (r : Response) (id : Nat) (c : Connection) (room : Nat) : Prop where
  connection_eq : r.connection = some id
  template_eq : r.template = c.template
  length_le : r.payload.length ≤ room

namespace Connection

variable {c : Connection} {id room : Nat} {r : Response}

/-- A response of a connection has its template and its numbers. -/
theorem isOf_response (c : Connection) (id room : Nat) (flags : UInt8) {payload : List UInt8}
    (hlength : payload.length ≤ room) : (c.response id flags payload).IsOf id c room :=
  ⟨rfl, rfl, hlength⟩

/-- A RST has the template and the numbers of its connection. -/
theorem isOf_resetResponse? (h : c.resetResponse? id = some r) : r.IsOf id c room := by
  unfold resetResponse? at h
  split at h
  · contradiction
  · cases h
    exact c.isOf_response id room _ (Nat.zero_le _)

theorem isOf_connectedResponse? {result : Except Fault Unit}
    (h : c.connectedResponse? id result = some r) : r.IsOf id c room := by
  unfold connectedResponse? at h
  split at h
  · contradiction
  · split at h
    · have hreset : r.IsOf id _ room := isOf_resetResponse? h
      exact ⟨hreset.connection_eq, hreset.template_eq, hreset.length_le⟩
    · cases h
      exact c.isOf_response id room _ (Nat.zero_le _)

theorem isOf_receivedResponse? {now : Instant} {eofIdle : Nat}
    {result : Except Fault (List UInt8)} (hroom : ∀ data, result = .ok data → data.length ≤ room)
    (h : c.receivedResponse? id now eofIdle result = some r) : r.IsOf id c room := by
  unfold receivedResponse? at h
  split at h
  · contradiction
  · rcases result with x | (_ | ⟨byte, rest⟩)
    · exact isOf_resetResponse? h
    · simp only at h
      split at h
      · contradiction
      · cases h
        exact c.isOf_response id room _ (Nat.zero_le _)
    · cases h
      exact c.isOf_response id room _ (hroom (byte :: rest) rfl)

theorem isOf_completeResponse? {g : Segment} (h : c.completeResponse? id g = some r) :
    r.IsOf id c room := by
  unfold completeResponse? at h
  simp only at h
  split at h
  · cases h
    exact ⟨rfl, rfl, Nat.zero_le _⟩
  · split at h
    · cases h
      exact ⟨rfl, rfl, Nat.zero_le _⟩
    · contradiction

theorem isOf_wroteResponse? {result : Except Fault Unit}
    (h : c.wroteResponse? id result = some r) : r.IsOf id c room := by
  unfold wroteResponse? at h
  split at h
  · contradiction
  · split at h
    · contradiction
    · split at h
      · exact isOf_resetResponse? h
      · exact isOf_completeResponse? h

theorem isOf_segmentResponse? {writes : Bool} {tcp : Packet.Tcp} {payload : List UInt8}
    (h : c.segmentResponse? id writes tcp payload = some r) : r.IsOf id c room := by
  unfold segmentResponse? at h
  split at h
  · contradiction
  split at h
  · split at h
    · contradiction
    · exact isOf_resetResponse? h
  split at h
  · contradiction
  split at h
  · exact isOf_resetResponse? h
  split at h
  · contradiction
  split at h
  · contradiction
  · exact isOf_resetResponse? h

end Connection

namespace Engine

variable {e : Engine} {s : Surroundings} {event : Event} {r : Response}

/-- What a packet of the device makes the engine write belongs to a connection, or refuses a SYN. -/
theorem handleResponse?_cases {d : Datagram} (h : e.handleResponse? s d = some r) :
    (∃ id c, e.store.connection? id = some c ∧ r.IsOf id c e.readRoom) ∨
      ∃ tcp, d.headers.tcp? = some tcp ∧ e.Refuses s d ∧ r = refusal d.headers tcp := by
  unfold handleResponse? at h
  split at h
  · contradiction
  · next tcp htcp =>
      split at h
      · next id _ =>
          split at h
          · contradiction
          · next c hc =>
              split at h
              · contradiction
              · exact .inl ⟨id, c, hc, Connection.isOf_segmentResponse? h⟩
      · next hunknown =>
          split at h
          · next hsyn =>
              split at h
              · next fault hsocket =>
                  cases h
                  exact .inr ⟨tcp, htcp, ⟨⟨tcp, htcp, hsyn⟩, hunknown, fault, hsocket⟩, rfl⟩
              · contradiction
          · contradiction

/-- **Addressing**: what a step writes is for a connection, by its template, or refuses the SYN that
the step is about. -/
theorem response?_cases (h : e.response? s event = some r) :
    (∃ id c, e.store.connection? id = some c ∧ r.IsOf id c e.readRoom) ∨
      ∃ initial d tcp, event = .segment initial d ∧ d.headers.tcp? = some tcp ∧ e.Refuses s d ∧
        r = refusal d.headers tcp := by
  cases event with
  | segment initial d =>
      cases handleResponse?_cases h with
      | inl hof => exact .inl hof
      | inr hrefused =>
          obtain ⟨tcp, htcp, hrefuses, hr⟩ := hrefused
          exact .inr ⟨initial, d, tcp, rfl, htcp, hrefuses, hr⟩
  | connected id target result =>
      simp only [response?] at h
      split at h
      · obtain ⟨c, hc, hr⟩ := Option.bind_eq_some_iff.mp h
        exact .inl ⟨id, c, hc, Connection.isOf_connectedResponse? hr⟩
      · contradiction
  | received id result =>
      simp only [response?] at h
      split at h
      · obtain ⟨c, hc, hr⟩ := Option.bind_eq_some_iff.mp h
        have hroom (data : List UInt8) (hdata : result.map (·.take e.readRoom) = .ok data) :
            data.length ≤ e.readRoom := length_le_readRoom hdata
        exact .inl ⟨id, c, hc, Connection.isOf_receivedResponse? hroom hr⟩
      · contradiction
  | wrote id result =>
      simp only [response?] at h
      split at h
      · obtain ⟨c, hc, hr⟩ := Option.bind_eq_some_iff.mp h
        exact .inl ⟨id, c, hc, Connection.isOf_wroteResponse? hr⟩
      · contradiction
  | took | abandoned | closeAll => contradiction

end Engine

end FlowRelay.Tcp
